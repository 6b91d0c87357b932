import Scaffold.Proofs.Store.Interchange

/-!
# Modes that are not listed

A template is looked up under the name that its tag and mode make, and the same look-up serves
macros and names of any depth. So a mode that a store does not list for a tag can still lead to a
text that is stored elsewhere (`Store.Strays`): a macro of this name, or a template whose tag and
mode are divided at another slash. If there is none, rendering fails for want of the template,
whatever the context is, and only then (`Store.render_unlisted`).
-/

namespace Scaffold

open Template (Value)

/-! ### A repository that has kept nothing -/

namespace Repository

variable {r : Repository} {s : Site} {tag mode : String}

/-- Renders the template for a tag and a mode with the names of any value. -/
def renderWith (r : Repository) (tag mode : String) (context : Value) : Work String := do
  Work.ofExcept (← (renderNamed Node.rendering tag mode context).conduct r)

theorem render_eq_renderWith (r : Repository) (tag mode : String) (context : Json) :
    r.render tag mode context = r.renderWith tag mode (.ofJson context) := rfl

theorem new_apply (st : Store) (s : Site) : ∃ r t, Repository.new st s = (.ok r, t) ∧
    r.store = st ∧ t.disk = s.disk ∧ ∀ name, t.kept? r.shelf name = none := by
  refine ⟨⟨st, s.shelves.length⟩, _, rfl, rfl, rfl, fun name => ?_⟩
  simp [Site.kept?]

theorem renderWith_apply (r : Repository) (tag mode : String) (context : Value) (s : Site) :
    (r.renderWith tag mode context s).1 =
      (renderNamed Node.rendering tag mode context).resultAt r s := by
  obtain ⟨t, ht, -⟩ := (renderNamed Node.rendering tag mode context).conduct_apply r s
  rw [renderWith, Work.bind_of_ok ht, Work.fst_ofExcept]

/-- **The template is missing exactly if the store holds nothing under its name.** -/
theorem renderWith_eq_missing_iff (hfresh : s.kept? r.shelf (templateName tag mode) = none)
    (context : Value) (name : String) :
    (r.renderWith tag mode context s).1 = .error (.templateNotFound name) ↔
      r.store.held s.disk (templateName tag mode) = .ok none ∧ name = templateName tag mode := by
  rw [renderWith_apply, Inquiry.resultAt, eval_renderNamed, answer_of_missing hfresh]
  cases hheld : r.store.held s.disk (templateName tag mode) with
  | error f => simp [compiled, loadFault, RenderFault.kind]
  | ok source? =>
    cases source? with
    | none => simp [compiled, RenderFault.of, RenderFault.kind, eq_comm]
    | some source =>
      simp only [compiled, Except.ok.injEq, reduceCtorEq, false_and, iff_false]
      cases hread : Template.read (templateName tag mode) source with
      | error f =>
        simp only [if_neg (Template.kind_of_read hread)]
        intro h
        cases h
      | ok t =>
        simp only
        intro h
        cases hr : (Template.renderTemplate Node.rendering t context).eval (r.answer s)
          (r.store.listed s.disk) _ <;> rw [hr] at h <;> cases h

end Repository

/-! ### In memory -/

namespace MemoryStore

variable {m : MemoryStore} {tag mode : String}

/-- **Something else is stored under the name of a template**: a macro, or a template whose tag ends
at the first slash of this tag. -/
def Strays (m : MemoryStore) (tag mode : String) : Prop :=
  (m.macros.lookup (templateName tag mode)).isSome ∨ ∃ front back, '/' ∉ front.toList ∧
    tag = front ++ "/" ++ back ∧ (m.template? front (back ++ "/" ++ mode)).isSome

/-- A tag with a slash has a first one. -/
theorem exists_front {tag : String} (h : '/' ∈ tag.toList) :
    ∃ front back, '/' ∉ front.toList ∧ tag = front ++ "/" ++ back := by
  obtain ⟨front, back, hsplit, hfront⟩ := List.eq_append_cons_of_mem h
  exact ⟨.ofList front, .ofList back, by simpa using hfront,
    String.toList_injective (by simp [hsplit])⟩

/-- The name of a template does not tell where its tag ends. -/
theorem templateName_divided (front back mode : String) :
    templateName (front ++ "/" ++ back) mode = templateName front (back ++ "/" ++ mode) := by
  simp [templateName, String.append_assoc]

/-- **What is missing in memory.** -/
theorem source?_eq_none_iff (h : ∀ ms, m.modes? tag = some ms → mode ∉ ms) :
    m.source? (templateName tag mode) = none ↔ ¬ m.Strays tag mode := by
  have hnone : m.template? tag mode = none := by
    by_contra hsome
    obtain ⟨ms, hms, hmode⟩ := mem_modes?.2 (Option.isSome_iff_ne_none.2 hsome)
    exact h ms hms hmode
  constructor
  · rintro hsource (hplace | ⟨front, back, hfront, rfl, hsome⟩)
    · rw [source?, Option.or_eq_none_iff] at hsource
      simp [hsource.2] at hplace
    · rw [templateName_divided, source?_append hfront, Option.or_eq_none_iff] at hsource
      simp [hsource.1] at hsome
  · intro hstrays
    rw [Strays, not_or, Option.not_isSome_iff_eq_none] at hstrays
    by_cases hslash : '/' ∈ tag.toList
    · obtain ⟨front, back, hfront, rfl⟩ := exists_front hslash
      have hother : m.template? front (back ++ "/" ++ mode) = none := by
        by_contra hsome
        exact hstrays.2 ⟨front, back, hfront, rfl, Option.isSome_iff_ne_none.2 hsome⟩
      rw [templateName_divided, source?_append hfront, hother, ← templateName_divided, hstrays.1]
      rfl
    · rw [source?_append hslash, hnone, hstrays.1]
      rfl

end MemoryStore

/-! ### On a disk -/

namespace DirectoryStore

variable {st : DirectoryStore} {s : Site} {d : Disk} {tag mode : String}

/-- **Another file has the name of a template**: a macro, or a file which is not that of a mode right
below the directory of a tag. -/
def Strays (st : DirectoryStore) (d : Disk) (tag mode : String) : Prop :=
  (∃ p, resolve? st.macros (templateName tag mode) = some p ∧ d.isFile p = true) ∨
    ('/' ∈ tag.toList ∨ '/' ∈ mode.toList ∨ mode = "") ∧
      ∃ p, resolve? st.templates (templateName tag mode) = some p ∧ d.isFile p = true

/-- No text is found exactly if there is no file. -/
theorem firstFile_eq_none_iff (ps : List (Option Path)) : (firstFile ps s).1 = .ok none ↔
    ∀ p, some p ∈ ps → s.disk.isFile p = false := by
  induction ps with
  | nil => simp only [List.not_mem_nil, false_implies, implies_true, iff_true]; rfl
  | cons p? ps ih =>
    cases p? with
    | none =>
      rw [firstFile, ih]
      simp
    | some p =>
      cases hp : s.disk.isFile p with
      | false =>
        rw [firstFile_of_missing (by simp [hp]), ih]
        simp [hp]
      | true =>
        -- a file that is there is read, or it is a fault that it cannot be
        refine iff_of_false (fun h => ?_) fun h => by simp [h p List.mem_cons_self] at hp
        have hdisk : Work.disk s = (.ok s.disk, s) := rfl
        rw [firstFile, Work.bind_of_ok hdisk, if_pos hp] at h
        obtain ⟨_, t, -, h⟩ := Work.exists_of_bind_eq_ok (Prod.ext h rfl)
        obtain ⟨text, u, -, h⟩ := Work.exists_of_bind_eq_ok h
        cases h

/-- **A file right below the directory of a tag is listed** as that of a mode. -/
theorem mem_modes_of_isFile {p : Path} (ht : '/' ∉ tag.toList) (hm : '/' ∉ mode.toList)
    (hne : mode ≠ "") (hp : resolve? st.templates (templateName tag mode) = some p)
    (hfile : s.disk.isFile p = true) : ∃ ms, (st.modes tag s).1 = .ok ms ∧ mode ∈ ms := by
  have hslash : '/' ∉ (templateFile mode).toList := by
    simp [templateFile, templateSuffix, templateExtension, hm]
  have hsegments := segments_templateName ht hslash
  have hplain : ∀ n ∈ segments (templateName tag mode), PlainName n := by
    by_contra hno
    rw [resolve?_of_not_plain _ hno] at hp
    cases hp
  rw [resolve?_of_plain _ hplain, hsegments] at hp
  obtain rfl := Option.some.inj hp
  rw [hsegments] at hplain
  have htag : PlainName tag := hplain tag (by simp)
  -- the file stands in the directory of the tag, which lists it
  obtain ⟨hc, l, c, hl, hv⟩ := Disk.leads_of_isFile (p := st.templates.joinName tag)
    (Path.text_joinName_ne_empty htag) (hplain _ (by simp)) hfile
  have hd : s.disk.isDirectory (st.templates.joinName tag) = true :=
    Disk.isDirectory_iff_leads.2 ⟨hc, l, hl⟩
  obtain ⟨es, hes, hmem⟩ := Disk.mem_list_of_file hl hc hv
  refine ⟨_, congrArg Prod.fst (modes_of_list htag hd hes),
    mem_distinctSorted.2 (List.mem_filterMap.2
      ⟨(templateFile mode, true), List.mem_filter.2 ⟨hmem, rfl⟩, modeOf?_eq_some.2 ⟨rfl, hne⟩⟩)⟩

end DirectoryStore

/-! ### Rendering in a mode that is not listed -/

namespace Store

variable {st : Store} {d : Disk} {tag mode : String}

/-- **Something else is held under the name** that a tag and a mode make. -/
def Strays (st : Store) (d : Disk) (tag mode : String) : Prop :=
  match st with
  | memory m => m.Strays tag mode
  | directory st => st.Strays d tag mode

/-- **What is missing in a store** that does not list the mode for the tag. -/
theorem held_eq_none_iff (h : ∀ ms, st.listed d tag = .ok ms → mode ∉ ms) :
    st.held d (templateName tag mode) = .ok none ↔ ¬ st.Strays d tag mode := by
  cases st with
  | memory m =>
    have hmodes : ∀ ms, m.modes? tag = some ms → mode ∉ ms := by
      refine fun ms hms => h ms ?_
      simp only [listed, modes, hms]
      rfl
    rw [Strays, ← MemoryStore.source?_eq_none_iff hmodes]
    exact iff_of_eq (Except.ok.injEq _ _)
  | directory st =>
    have hfiles : held (.directory st) d (templateName tag mode) = .ok none ↔ _ :=
      DirectoryStore.firstFile_eq_none_iff (s := .on d) _
    rw [hfiles]
    constructor
    · rintro hno (⟨p, hp, hfile⟩ | ⟨-, p, hp, hfile⟩) <;>
        exact Bool.noConfusion ((hno p (by simp [hp])).symm.trans hfile)
    · intro hstrays p hp
      rw [List.mem_pair] at hp
      by_contra hfile
      rw [Bool.not_eq_false] at hfile
      rcases hp with hp | hp
      · -- right below the directory of the tag, the mode of the file would be listed
        refine hstrays (.inr ⟨?_, p, hp.symm, hfile⟩)
        by_contra hplain
        rw [not_or, not_or] at hplain
        obtain ⟨ms, hms, hmode⟩ := DirectoryStore.mem_modes_of_isFile (s := .on d) hplain.1
          hplain.2.1 hplain.2.2 hp.symm hfile
        exact h ms hms hmode
      · exact hstrays (.inl ⟨p, hp.symm, hfile⟩)

/-- **The template for a mode that is not listed is missing**, whatever the context is, unless
something else is held under the name that the mode makes with the tag; and then it is not missing. -/
theorem render_unlisted (st : Store) (s : Site) {tag mode : String}
    (h : ∀ ms, (st.modes tag s).1 = .ok ms → mode ∉ ms) :
    ∃ r t, Repository.new st s = (.ok r, t) ∧
      (∀ context : Value,
        (¬ st.Strays s.disk tag mode → (r.renderWith tag mode context t).1 =
          .error (.templateNotFound (templateName tag mode))) ∧
        (st.Strays s.disk tag mode → ∀ name,
          (r.renderWith tag mode context t).1 ≠ .error (.templateNotFound name))) ∧
      ∀ context : Json, r.render tag mode context = r.renderWith tag mode (.ofJson context) := by
  obtain ⟨r, t, hnew, rfl, hdisk, hfresh⟩ := Repository.new_apply st s
  have hheld := held_eq_none_iff (d := s.disk) fun ms hms =>
    h ms (((r.store.reads_modes tag).result s).trans hms)
  rw [← hdisk] at hheld ⊢
  refine ⟨r, t, hnew, fun context => ⟨fun hstrays => ?_, fun hstrays name hmissing => ?_⟩,
    r.render_eq_renderWith tag mode⟩
  · exact (Repository.renderWith_eq_missing_iff (hfresh _) context _).2 ⟨hheld.2 hstrays, rfl⟩
  · have hnone := (Repository.renderWith_eq_missing_iff (hfresh _) context name).1 hmissing
    exact hheld.1 hnone.1 hstrays

/-- A tag with the one mode `m`, on a disk without macros. -/
theorem render_unlisted_stocked :
    ((directory (.below ⟨"store"⟩)).modes "a" (.on (stocked "a"))).1.toOption = some ["m"] ∧
      ∃ r t, Repository.new (directory (.below ⟨"store"⟩)) (.on (stocked "a")) = (.ok r, t) ∧
        (r.render "a" "n" (.object []) t).1 = .error (.templateNotFound "a/n.jinja") := by
  have hmodes : ((directory (.below ⟨"store"⟩)).modes "a" (.on (stocked "a"))).1.toOption =
    some ["m"] := by decide +kernel
  have hname : templateName "a" "n" = "a/n.jinja" := by decide
  have hplace : DirectoryStore.resolve? (DirectoryStore.below ⟨"store"⟩).macros "a/n.jinja" =
    some ⟨"store/macros/a/n.jinja"⟩ := by decide +kernel
  have hstrays : ¬ (directory (.below ⟨"store"⟩)).Strays (stocked "a") "a" "n" := by
    rintro (⟨p, hp, hfile⟩ | ⟨hslash, -⟩)
    · rw [hname, hplace] at hp
      obtain rfl := Option.some.inj hp
      exact absurd hfile (by decide +kernel)
    · exact absurd hslash (by decide)
  have hunlisted : ∀ ms, ((directory (.below ⟨"store"⟩)).modes "a" (.on (stocked "a"))).1 = .ok ms →
      "n" ∉ ms := fun ms hms => by
    rw [hms] at hmodes
    simp [Option.some.inj hmodes]
  obtain ⟨r, t, hnew, hcontext, hjson⟩ := render_unlisted _ _ hunlisted
  refine ⟨hmodes, r, t, hnew, ?_⟩
  rw [hjson, (hcontext _).1 hstrays, hname]

/-- Renders with a new repository and without a context. -/
def renderAnew (st : Store) (tag mode : String) : Work String := do
  let r ← Repository.new st
  r.render tag mode (.object [])

/-- A group with the mode `html`, and a macro that is named like a template of it. -/
def crossed : MemoryStore :=
  .ofInsertions [.template "page" "html" "text", .macroFile "page/css.jinja" "macro"]

/-- The same on a disk, with a file below the group and one whose name is only the suffix. -/
def crossedDisk : Disk :=
  let file (text : String) : DiskEntry := .file (.text text)
  ⟨.directory [("macros", .directory [("page", .directory [("css.jinja", file "macro")])]),
    ("templates", .directory [("page", .directory [(".jinja", file "bare"),
      ("html.jinja", file "text"), ("print", .directory [("css.jinja", file "deep")])])])], []⟩

/-- No other mode than `html` is listed, but the template for others is not missing. -/
theorem render_unlisted_crossed :
    (((memory crossed).modes "page" .empty).1.toOption = some ["html"] ∧
      ((memory crossed).renderAnew "page" "css" .empty).1.toOption = some "macro") ∧
    let st := directory (.below ⟨"."⟩)
    (st.modes "page" (.on crossedDisk)).1.toOption = some ["html"] ∧
      (st.renderAnew "page" "css" (.on crossedDisk)).1.toOption = some "macro" ∧
      (st.renderAnew "page" "print/css" (.on crossedDisk)).1.toOption = some "deep" ∧
      (st.renderAnew "page" "" (.on crossedDisk)).1.toOption = some "bare" := by decide +kernel

end Store

end Scaffold
