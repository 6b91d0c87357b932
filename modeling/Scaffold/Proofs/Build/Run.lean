import Scaffold.Proofs.Build.Items
import Scaffold.Proofs.Disk.Ancestors
import Scaffold.Proofs.Work

/-!
# Builds carry out their items

Below a path that leads to a directory, making entries is carrying out their items on the view of
the disk (`built_makeEntries`). A build first grows the disk towards its base path and then carries
out the items of its specification (`build_cases`).
-/

namespace Scaffold.Build

variable {base : Path} {place l : Location} {xs ys : List LayoutItem} {i : LayoutItem}
variable {s t : Site} {p : Path} {n : String}

/-- What work on items has come to, from the site `s` on: the disk holds what carrying out the items
gives, and the result is the steps of all items or the failure of the refused one. -/
structure Built (base : Path) (place : Location) (xs : List LayoutItem) (s : Site)
    (r : Except Failure (List BuildStep) × Site) : Prop where
  home : r.2.disk.home = s.disk.home
  view : r.2.disk.view = (carryOut base place xs s.disk.view).1
  result : r.1 = match (carryOut base place xs s.disk.view).2 with
    | none => .ok (xs.map (LayoutItem.step base))
    | some f => .error f

theorem Built.nil (base : Path) (place : Location) (s : Site) :
    Built base place [] s (.ok [], s) := ⟨rfl, rfl, rfl⟩

theorem Built.of_none {r : Except Failure (List BuildStep) × Site} (h : Built base place xs s r)
    (ho : (carryOut base place xs s.disk.view).2 = none) :
    ∃ t, r = (.ok (xs.map (LayoutItem.step base)), t) ∧ t.disk.home = s.disk.home ∧
      t.disk.view = (carryOut base place xs s.disk.view).1 := by
  have hr := h.result
  rw [ho] at hr
  exact ⟨r.2, Prod.ext hr rfl, h.home, h.view⟩

theorem Built.of_some {r : Except Failure (List BuildStep) × Site} {f : Failure}
    (h : Built base place xs s r) (ho : (carryOut base place xs s.disk.view).2 = some f) :
    ∃ t, r = (.error f, t) ∧ t.disk.home = s.disk.home ∧
      t.disk.view = (carryOut base place xs s.disk.view).1 := by
  have hr := h.result
  rw [ho] at hr
  exact ⟨r.2, Prod.ext hr rfl, h.home, h.view⟩

/-- **Work on two lists of items, one after the other.** The second part goes on only if no item of
the first is refused. -/
theorem Built.append {m k : Work (List BuildStep)} (hm : Built base place xs s (m s))
    (hk : ∀ t : Site, t.disk.home = s.disk.home →
      t.disk.view = (carryOut base place xs s.disk.view).1 →
      (carryOut base place xs s.disk.view).2 = none → Built base place ys t (k t)) :
    Built base place (xs ++ ys) s
      ((do let a ← m; let b ← k; Pure.pure (a ++ b) : Work (List BuildStep)) s) := by
  cases ho : (carryOut base place xs s.disk.view).2 with
  | some f =>
    obtain ⟨t, hr, hh, hv⟩ := hm.of_some ho
    have hall := carryOut_append_of_some ho ys
    rw [Work.bind_of_error hr]
    exact ⟨hh, by rw [hall, hv], by rw [hall, ho]⟩
  | none =>
    -- the second part starts from the view that the first one leaves
    obtain ⟨t, hr, hh, hv⟩ := hm.of_none ho
    have hall := carryOut_append_of_none ho ys
    have hkt := hk t hh hv ho
    rw [← hv] at hall
    rw [Work.bind_of_ok hr]
    cases ho' : (carryOut base place ys t.disk.view).2 with
    | some f =>
      obtain ⟨u, hr', hh', hv'⟩ := hkt.of_some ho'
      rw [Work.bind_of_error hr']
      exact ⟨hh'.trans hh, by rw [hall, hv'], by rw [hall, ho']⟩
    | none =>
      obtain ⟨u, hr', hh', hv'⟩ := hkt.of_none ho'
      rw [Work.bind_of_ok hr']
      exact ⟨hh'.trans hh, by rw [hall, ← hv']; rfl, by rw [hall, ho', List.map_append]; rfl⟩

/-! ### One item -/

theorem makeDirectory_apply (p : Path) (s : Site) : Build.makeDirectory p s =
    if s.disk.pathExists p && !s.disk.isDirectory p then
      (.error (.conflict p "a file exists where a directory is expected"), s)
    else Work.makeDirectories p s := by
  change (if _ then _ else _ : Work Unit) s = _
  split <;> rfl

theorem writeFile_apply (p : Path) (content : String) (s : Site) : Build.writeFile p content s =
    if s.disk.isDirectory p then
      (.error (.conflict p "a directory exists where a file is expected"), s)
    else Work.writeFile p content s := by
  change (if _ then _ else _ : Work Unit) s = _
  split <;> rfl

/-- What making a directory does to a site, below a path that leads to a directory. -/
theorem makeDirectory_joinName (h : s.disk.Leads p l) (hn : PlainName n) :
    Build.makeDirectory (p.joinName n) s =
      if Disk.TooLong p n then (.error (.ioFailure (p.joinName n) .nameTooLong), s)
      else match s.disk.view (l ++ [n]) with
        | some (.file _) => (.error (.conflict (p.joinName n) (conflictReason .directory)), s)
        | some .directory => (.ok (), s)
        | none => (.ok (), { s with disk := s.disk.put (.directory []) (l ++ [n]) }) := by
  rw [makeDirectory_apply, Work.makeDirectories_apply, Disk.makeDirectories_joinName h hn]
  by_cases hlong : Disk.TooLong p n
  · -- what is too long does not exist, so that the conflict is never found
    simp [hlong, Disk.pathExists_of_tooLong h hn hlong]
  · have hp := Disk.pathExists_joinName h hn hlong
    have hd := Disk.isDirectory_joinName h hn hlong
    cases hv : s.disk.view (l ++ [n]) with
    | none =>
      have hp' : ¬ s.disk.pathExists (p.joinName n) = true := by simp [hp, hv]
      simp [hlong, hp']
    | some st =>
      cases st with
      | directory => simp [hlong, hd.2 hv]
      | file c =>
        have hd' : ¬ s.disk.isDirectory (p.joinName n) = true := by simp [hd, hv]
        simp [hlong, hp.2 (by simp [hv]), hd', conflictReason]

theorem writeFile_joinName (h : s.disk.Leads p l) (hn : PlainName n) (c : String) :
    Build.writeFile (p.joinName n) c s =
      if Disk.TooLong p n then (.error (.ioFailure (p.joinName n) .nameTooLong), s)
      else if s.disk.view (l ++ [n]) = some .directory then
        (.error (.conflict (p.joinName n) (conflictReason (.file (.text c)))), s)
      else (.ok (), { s with disk := s.disk.put (.file (.text c)) (l ++ [n]) }) := by
  rw [writeFile_apply, Work.writeFile_apply, Disk.writeFile_joinName h hn]
  by_cases hlong : Disk.TooLong p n
  · simp [hlong, Disk.isDirectory_of_tooLong h hn hlong]
  · have hd := Disk.isDirectory_joinName h hn hlong
    by_cases hv : s.disk.view (l ++ [n]) = some .directory
    · simp [hlong, hd.2 hv, hv, conflictReason]
    · simp [hlong, mt hd.1 hv, hv]

/-- Work on a single item, and a remark that it has been made. -/
def makeItem (base : Path) (i : LayoutItem) : Work (List BuildStep) := do
  match i.content? with
  | none =>
    Build.makeDirectory (i.path base)
    Work.debug ("Created directory: " ++ (i.path base).text)
  | some c =>
    Build.writeFile (i.path base) c
    Work.debug ("Created file: " ++ (i.path base).text)
  Pure.pure [i.step base]

theorem path_eq_joinName (base : Path) (i : LayoutItem) :
    i.path base = (base.joinNames i.lead).joinName i.name := by
  rw [LayoutItem.path, LayoutItem.names, Path.joinNames_append, Path.joinNames_singleton]

/-- Work that carries out one item or refuses it, with a remark that it has been made. -/
theorem Built.single {m : Work Unit} (text : String)
    (h : (∃ f, refusal? base place s.disk.view i = some f ∧ m s = (.error f, s)) ∨
      refusal? base place s.disk.view i = none ∧ ∃ t, m s = (.ok (), t) ∧
        t.disk.home = s.disk.home ∧ t.disk.view = putItem place s.disk.view i) :
    Built base place [i] s
      ((do m; Work.debug text; Pure.pure [i.step base] : Work (List BuildStep)) s) := by
  rcases h with ⟨f, hf, hm⟩ | ⟨hf, t, hm, hh, hv⟩
  · rw [Work.bind_of_error hm]
    exact ⟨rfl, by simp [carryOut, hf], by simp [carryOut, hf]⟩
  · rw [Work.bind_of_ok hm]
    exact ⟨hh, by simp only [carryOut, hf, ← hv]; rfl, by simp only [carryOut, hf]; rfl⟩

/-- **Making one item is carrying it out.** -/
theorem built_makeItem (h : s.disk.Leads (base.joinNames i.lead) (place ++ i.lead))
    (hn : PlainName i.name) : Built base place [i] s (makeItem base i s) := by
  obtain ⟨lead, n, content?⟩ := i
  generalize hl : place ++ lead = l at h
  have hplace : place ++ LayoutItem.names ⟨lead, n, content?⟩ = l ++ [n] := by
    rw [← hl, LayoutItem.names, List.append_assoc]
  cases content? with
  | none =>
    refine Built.single _ ?_
    simp only [refusal?, putItem, hplace, path_eq_joinName, makeDirectory_joinName h hn]
    by_cases hlong : Disk.TooLong (base.joinNames lead) n
    · simp [hlong]
    · cases hv : s.disk.view (l ++ [n]) with
      | none => simp [hlong, Disk.view_put_directory h.directory, hv, LayoutItem.wanted]
      | some st =>
        cases st with
        | directory => simp [hlong, LayoutItem.wanted, hv]
        | file c => simp [hlong, LayoutItem.wanted]
  | some c =>
    refine Built.single _ ?_
    simp only [refusal?, putItem, hplace, path_eq_joinName, writeFile_joinName h hn]
    by_cases hlong : Disk.TooLong (base.joinNames lead) n
    · simp [hlong]
    · cases hv : s.disk.view (l ++ [n]) with
      | none => simp [hlong, Disk.view_put_file _ h.directory, hv, LayoutItem.wanted]
      | some st =>
        cases st with
        | directory => simp [hlong, LayoutItem.wanted]
        | file c' =>
          simp [hlong, Disk.view_put_file _ h.directory, hv, LayoutItem.wanted]

/-! ### All entries of a layout -/

theorem makeEntry_directory (lead : List String) (name : String) (children : List LayoutEntry) :
    makeEntry (base.joinNames lead) (.directory name children) = (do
      let a ← makeItem base ⟨lead, name, none⟩
      let b ← makeEntries (base.joinNames (lead ++ [name])) children
      Pure.pure (a ++ b)) := by
  simp [makeEntry, makeItem, path_eq_joinName, LayoutItem.step, LayoutItem.wanted]

theorem makeEntry_file (lead : List String) (name content : String) :
    makeEntry (base.joinNames lead) (.file name content) =
      makeItem base ⟨lead, name, some content⟩ := by
  simp [makeEntry, makeItem, path_eq_joinName, LayoutItem.step, LayoutItem.wanted]

mutual

/-- Making an entry is carrying out its items. -/
theorem built_makeEntry (lead : List String) (s : Site) (parent : Path) : (e : LayoutEntry) →
    e.fault? parent = none → s.disk.Leads (base.joinNames lead) (place ++ lead) →
      Built base place (e.items lead) s (makeEntry (base.joinNames lead) e s)
  | .directory name children, hf, hs => by
    have hplain := (LayoutEntry.fault?_eq_none lead parent _).1 hf
    have hn : PlainName name := hplain ⟨lead, name, none⟩ (by simp [LayoutEntry.items])
    have hc : LayoutEntry.faultOfList? (parent.joinName name) children = none :=
      (LayoutEntry.faultOfList?_eq_none (lead ++ [name]) _ children).2 fun i hi =>
        hplain i (by simp [LayoutEntry.items, hi])
    rw [makeEntry_directory, LayoutEntry.items, ← List.singleton_append]
    refine Built.append (built_makeItem hs hn) fun t hh hv ho => ?_
    -- the directory is there now, and the path to it leads there
    refine built_makeEntries (lead ++ [name]) t (parent.joinName name) children hc ?_
    obtain ⟨hr, hput⟩ := carryOut_singleton ho
    have hs' := hs.of_keeps hh (hv ▸ keeps_carryOut _ _)
    have hd : t.disk.view (place ++ lead ++ [name]) = some .directory := by
      rw [hv, hput, putItem, LayoutItem.names, ← List.append_assoc]
      simp [LayoutItem.wanted]
    have := hs'.joinName hn (refusal?_eq_none.1 hr).1 hd
    rwa [List.append_assoc, ← Path.joinNames_singleton, ← Path.joinNames_append] at this
  | .file name content, hf, hs => by
    have hn := (LayoutEntry.fault?_eq_none lead parent _).1 hf ⟨lead, name, some content⟩
      (by simp [LayoutEntry.items])
    rw [makeEntry_file]
    exact built_makeItem hs hn

/-- **Making entries is carrying out their items.** -/
theorem built_makeEntries (lead : List String) (s : Site) (parent : Path) :
    (es : List LayoutEntry) → LayoutEntry.faultOfList? parent es = none →
      s.disk.Leads (base.joinNames lead) (place ++ lead) →
      Built base place (LayoutEntry.itemsOfList lead es) s (makeEntries (base.joinNames lead) es s)
  | [], _, _ => Built.nil base place s
  | e :: r, hf, hs => by
    rw [LayoutEntry.faultOfList?, Option.or_eq_none_iff] at hf
    exact Built.append (built_makeEntry lead s parent e hf.1 hs) fun t hh hv _ =>
      built_makeEntries lead t parent r hf.2 (hs.of_keeps hh (hv ▸ keeps_carryOut _ _))

end

/-! ### The base path -/

theorem makeDirectory_eq_ok (h : Build.makeDirectory p s = (.ok (), t)) (hp : p.text ≠ "") :
    Disk.check p = .ok () ∧ (∃ l, t.disk.Leads p l) ∧ Disk.GrowsTowards p s.disk t.disk := by
  rw [makeDirectory_apply] at h
  split at h
  · simp at h
  rw [Work.makeDirectories_apply, Prod.mk.injEq] at h
  obtain ⟨hr, rfl⟩ := h
  have hfault : (s.disk.makeDirectories p).2 = none := by
    cases hm : (s.disk.makeDirectories p).2 with
    | none => rfl
    | some f => rw [hm] at hr; cases hr
  obtain ⟨hc, hl⟩ := Disk.isDirectory_iff_leads.1 (Disk.isDirectory_makeDirectories hp hfault)
  exact ⟨hc, hl, Disk.growsTowards_makeDirectories s.disk p⟩

/-- A directory that cannot be made leaves those above it, and in a conflict nothing is made. -/
theorem makeDirectory_eq_error {f : Failure} (h : Build.makeDirectory p s = (.error f, t)) :
    Disk.GrowsTowards p s.disk t.disk ∧ ∀ q r, f = .conflict q r →
      t = s ∧ s.disk.pathExists p = true ∧ s.disk.isDirectory p = false := by
  rw [makeDirectory_apply] at h
  split at h
  next hc =>
    obtain ⟨-, rfl⟩ := Prod.mk.inj h
    exact ⟨Disk.GrowsTowards.refl p s.disk, fun _ _ _ => ⟨rfl, by simpa using hc⟩⟩
  · rw [Work.makeDirectories_apply, Prod.mk.injEq] at h
    obtain ⟨hr, rfl⟩ := h
    refine ⟨Disk.growsTowards_makeDirectories s.disk p, ?_⟩
    rintro q r rfl
    cases hm : (s.disk.makeDirectories p).2 <;> rw [hm] at hr <;> cases hr

/-- A file in the way is a conflict, whatever else there is on the site. -/
theorem makeDirectory_of_conflict (he : s.disk.pathExists p = true)
    (hd : s.disk.isDirectory p = false) :
    Build.makeDirectory p s = (.error (.conflict p (conflictReason .directory)), s) := by
  rw [makeDirectory_apply]
  simp [he, hd, conflictReason]

theorem makeDirectory_of_isDirectory (h : s.disk.isDirectory p = true) :
    Build.makeDirectory p s = (.ok (), s) := by
  rw [makeDirectory_apply, Work.makeDirectories_apply, Disk.makeDirectories_of_isDirectory h]
  simp [h]

end Scaffold.Build

namespace Scaffold.Specification

open Build

variable {spec : Specification} {root : Path} {place : Location} {s t : Site}

/-- The path that a specification is built at. -/
def base (spec : Specification) (root : Path) : Path := root.join spec.basePath

/-- The project's name is joined last, to where the output goes. -/
theorem base_eq_joinName (h : spec.fault? = none) :
    spec.base root = (root.join spec.outputDir).joinName spec.projectName := by
  obtain ⟨hn, ho, -⟩ := fault?_eq_none.1 h
  rw [base, basePath, Path.join_joinName ho hn]

theorem base_text_ne_empty (h : spec.fault? = none) : (spec.base root).text ≠ "" := by
  rw [base_eq_joinName h]
  exact Path.text_joinName_ne_empty (fault?_eq_none.1 h).1

/-- **How a build ends** that goes on from the site `t`, where its base path leads to `place`. -/
structure Ends (spec : Specification) (root : Path) (place : Location) (t : Site)
    (r : Except Failure BuildReport × Site) : Prop where
  home : r.2.disk.home = t.disk.home
  view : r.2.disk.view = (carryOut (spec.base root) place spec.items t.disk.view).1
  result : r.1 = match (carryOut (spec.base root) place spec.items t.disk.view).2 with
    | none => .ok ⟨spec.base root, spec.items.map (LayoutItem.step (spec.base root))⟩
    | some f => .error f

theorem build_eq (spec : Specification) (root : Path) : (spec.build root : Work BuildReport) = (do
    Work.ofExcept spec.validate
    Build.makeDirectory (spec.base root)
    let steps ← makeEntries (spec.base root) spec.entries
    Work.info (BuildReport.mk (spec.base root) steps).summary
    Pure.pure ⟨spec.base root, steps⟩) := rfl

theorem build_of_fault {f : LayoutFault} (h : spec.fault? = some f) :
    spec.build root s = (.error (.specification f.message), s) := by
  have hv : Work.ofExcept spec.validate s = (.error (.specification f.message), s) := by
    rw [validate, h]; rfl
  rw [build_eq, Work.bind_of_error hv]

theorem build_of_error {f : Failure} (h : spec.fault? = none)
    (hm : Build.makeDirectory (spec.base root) s = (.error f, t)) :
    spec.build root s = (.error f, t) := by
  have hv : Work.ofExcept spec.validate s = (.ok (), s) := by rw [validate, h]; rfl
  rw [build_eq, Work.bind_of_ok hv, Work.bind_of_error hm]

theorem build_of_ok (h : spec.fault? = none)
    (hm : Build.makeDirectory (spec.base root) s = (.ok (), t))
    (hl : t.disk.Leads (spec.base root) place) : spec.Ends root place t (spec.build root s) := by
  have hv : Work.ofExcept spec.validate s = (.ok (), s) := by rw [validate, h]; rfl
  have hf : LayoutEntry.faultOfList? (spec.base root) spec.entries = none :=
    (LayoutEntry.faultOfList?_eq_none [] _ _).2 (fault?_eq_none.1 h).2.2
  have hb : Built (spec.base root) place spec.items t
      (makeEntries (spec.base root) spec.entries t) :=
    built_makeEntries [] t _ spec.entries hf (by simpa using hl)
  rw [build_eq, Work.bind_of_ok hv, Work.bind_of_ok hm]
  cases ho : (carryOut (spec.base root) place spec.items t.disk.view).2 with
  | some f =>
    obtain ⟨u, hr, hh, hvw⟩ := hb.of_some ho
    rw [Work.bind_of_error hr]
    exact ⟨hh, hvw, by rw [ho]⟩
  | none =>
    obtain ⟨u, hr, hh, hvw⟩ := hb.of_none ho
    rw [Work.bind_of_ok hr]
    exact ⟨hh, hvw, by rw [ho]; rfl⟩

/-- **All that a build can come to.** A fault of the specification is found first; then the base
path is made or not; then the items are carried out. -/
theorem build_cases (spec : Specification) (root : Path) (s : Site) :
    (∃ f, spec.fault? = some f ∧
      spec.build root s = (.error (.specification f.message), s)) ∨
    (spec.fault? = none ∧ ∃ f t, Build.makeDirectory (spec.base root) s = (.error f, t) ∧
      spec.build root s = (.error f, t)) ∨
    (spec.fault? = none ∧ ∃ place t, Disk.check (spec.base root) = .ok () ∧
      t.disk.Leads (spec.base root) place ∧
      Disk.GrowsTowards (spec.base root) s.disk t.disk ∧
      spec.Ends root place t (spec.build root s)) := by
  cases hf : spec.fault? with
  | some f => exact .inl ⟨f, rfl, build_of_fault hf⟩
  | none =>
    refine .inr ?_
    obtain ⟨r, t, hr⟩ : ∃ r t, Build.makeDirectory (spec.base root) s = (r, t) := ⟨_, _, rfl⟩
    cases r with
    | error f => exact .inl ⟨rfl, f, t, hr, build_of_error hf hr⟩
    | ok u =>
      obtain ⟨hc, ⟨place, hl⟩, hg⟩ := makeDirectory_eq_ok hr (base_text_ne_empty hf)
      exact .inr ⟨rfl, place, t, hc, hl, hg, build_of_ok hf hr hl⟩

end Scaffold.Specification
