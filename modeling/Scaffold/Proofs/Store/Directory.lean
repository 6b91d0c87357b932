import Scaffold.CommandLine.Program
import Scaffold.Proofs.Disk.Ordered
import Scaffold.Proofs.Pipeline.Parts
import Scaffold.Proofs.Store.Names

/-!
# Stores in directories

A store lists the directories below it as tags, whatever their names are, but looks up only names that
can be joined to a path (`Path.Takes`). For these, each listed tag has modes, and each listed mode has
the text of its file, so that rendering a node in it finds a template (`listed_found`). A tag whose
name cannot be joined has no modes.
-/

namespace Scaffold

open Work (Reads)

/-- **A name that can be joined to a path**: it stays where it is joined, and nothing gets too
long. -/
def Path.Takes (p : Path) (n : String) : Prop := PlainName n ∧ ¬ Disk.TooLong p n

namespace DirectoryStore

variable {st : DirectoryStore} {p : Path} {l : Location} {s : Site} {tag mode name : String}

/-! ### Paths of names -/

theorem resolve?_plain (p : Path) (h : PlainName name) : resolve? p name = some (p.joinName name) := by
  rw [resolve?, Text.splitAll_of_not_mem h.no_slash]
  simp [isPlainSegment_iff.2 h]

theorem resolve?_templateName (p : Path) (ht : PlainName tag) (hm : PlainName (templateFile mode)) :
    resolve? p (templateName tag mode) =
      some ((p.joinName tag).joinName (templateFile mode)) := by
  rw [resolve?, toList_templateName, Text.splitAll_append, Text.splitAll_of_not_mem ht.no_slash,
    Text.splitAll_of_not_mem hm.no_slash]
  simp [isPlainSegment_iff.2 ht, isPlainSegment_iff.2 hm]

/-! ### Tags -/

theorem listing_apply {es : List (String × Bool)} (h : s.disk.list p = .ok es) :
    listing p s = (.ok es, s) := by
  have hdisk : Work.disk s = (.ok s.disk, s) := rfl
  rw [listing, Work.bind_of_ok hdisk, h]
  rfl

/-- The tags of a store are the directories in its directory for templates. -/
theorem mem_tags {d : Disk} (ho : d.Ordered) (st : DirectoryStore) : ∃ tags,
    (∀ s : Site, s.disk = d → st.tags s = (.ok tags, s)) ∧
    ∀ tag ∈ tags, ∃ l, d.Leads st.templates l ∧ d.view (l ++ [tag]) = some .directory := by
  have hdisk : ∀ s : Site, Work.disk s = (.ok s.disk, s) := fun _ => rfl
  cases hd : d.isDirectory st.templates with
  | false =>
    refine ⟨[], ?_, by simp⟩
    rintro s rfl
    rw [DirectoryStore.tags, Work.bind_of_ok (hdisk s), if_neg (by simp [hd])]
    rfl
  | true =>
    obtain ⟨hc, l, hl⟩ := Disk.isDirectory_iff_leads.1 hd
    obtain ⟨es, hes, hdirs, -⟩ := Disk.exists_list ho hl hc
    refine ⟨distinctSorted ((es.filter fun e => !e.2).map Prod.fst), ?_, fun tag ht => ⟨l, hl, ?_⟩⟩
    · rintro s rfl
      rw [DirectoryStore.tags, Work.bind_of_ok (hdisk s), if_pos hd]
      exact Work.bind_of_ok (listing_apply hes)
    · obtain ⟨⟨n, b⟩, hm, rfl⟩ := List.mem_map.1 (mem_distinctSorted.1 ht)
      obtain ⟨hm, hb⟩ := List.mem_filter.1 hm
      have hb' : b = false := by simpa using hb
      exact (hdirs n).1 (hb' ▸ hm)

/-! ### Modes -/

theorem group?_apply (st : DirectoryStore) (tag : String) (s : Site) : st.group? tag s =
    (.ok ((resolve? st.templates tag).filter fun p => isPlainSegment tag && s.disk.isDirectory p),
      s) := rfl

/-- **A tag has the modes of the files that its directory lists.** -/
theorem modes_of_list {es : List (String × Bool)} (ht : PlainName tag)
    (hd : s.disk.isDirectory (st.templates.joinName tag) = true)
    (hes : s.disk.list (st.templates.joinName tag) = .ok es) :
    st.modes tag s =
      (.ok (distinctSorted ((es.filter Prod.snd).filterMap fun e => modeOf? e.1)), s) := by
  have hgroup : (resolve? st.templates tag).filter
      (fun p => isPlainSegment tag && s.disk.isDirectory p) =
        some (st.templates.joinName tag) := by
    rw [resolve?_plain _ ht]
    simp [Option.filter, hd, isPlainSegment_iff.2 ht]
  rw [DirectoryStore.modes, Work.bind_of_ok (group?_apply st tag s), hgroup]
  exact Work.bind_of_ok (listing_apply hes)

/-- **A tag without a directory has no modes**, and a name that is not plain has none either. -/
theorem modes_of_missing
    (h : PlainName tag → s.disk.isDirectory (st.templates.joinName tag) = false) :
    st.modes tag s = (.error (.templateNotFound tag), s) := by
  have hnone : (resolve? st.templates tag).filter
      (fun p => isPlainSegment tag && s.disk.isDirectory p) = none := by
    by_cases ht : PlainName tag
    · rw [resolve?_plain _ ht]
      simp [Option.filter, h ht]
    · rw [← isPlainSegment_iff, Bool.not_eq_true] at ht
      simp [ht]
  rw [DirectoryStore.modes, Work.bind_of_ok (group?_apply st tag s), hnone]
  rfl

/-- A tag that is no plain name, or whose path is too long, has no group. -/
theorem modes_of_not_takes (hl : s.disk.Leads st.templates l) (h : ¬ st.templates.Takes tag) :
    (st.modes tag s).1 = .error (.templateNotFound tag) := by
  -- a name that is not plain is refused before the disk is asked, one that is too long by the disk
  refine congrArg Prod.fst (modes_of_missing fun ht => ?_)
  have hlong : Disk.TooLong st.templates tag := by
    by_contra hlong
    exact h ⟨ht, hlong⟩
  exact Disk.isDirectory_of_tooLong hl ht hlong

/-- The modes of a tag are those of the template files in its directory. -/
theorem mem_modes (ho : s.disk.Ordered) (hl : s.disk.Leads st.templates l)
    (ht : st.templates.Takes tag) (hd : s.disk.view (l ++ [tag]) = some .directory) :
    s.disk.Leads (st.templates.joinName tag) (l ++ [tag]) ∧
    ∃ modes, st.modes tag s = (.ok modes, s) ∧ ∀ mode ∈ modes,
      ∃ c, s.disk.view (l ++ [tag] ++ [templateFile mode]) = some (.file c) := by
  obtain ⟨hn, hlong⟩ := ht
  have hdir : s.disk.isDirectory (st.templates.joinName tag) = true :=
    (Disk.isDirectory_joinName hl hn hlong).2 hd
  have hl' := hl.joinName hn hlong hd
  obtain ⟨hc, -⟩ := Disk.isDirectory_iff_leads.1 hdir
  obtain ⟨es, hes, -, hfiles⟩ := Disk.exists_list ho hl' hc
  refine ⟨hl', _, modes_of_list hn hdir hes, fun mode hm => ?_⟩
  -- the mode was cut from the name of a file that was listed, and this name is made of it again
  obtain ⟨⟨n, b⟩, hm, hmode⟩ := List.mem_filterMap.1 (mem_distinctSorted.1 hm)
  obtain ⟨hm, hb⟩ := List.mem_filter.1 hm
  obtain ⟨rfl, -⟩ := modeOf?_eq_some.1 hmode
  have hb' : b = true := hb
  exact (hfiles _).1 (hb' ▸ hm)

/-! ### Texts -/

theorem firstFile_of_readText {text : String} (h : s.disk.readText p = .ok text)
    (ps : List (Option Path)) : (firstFile (some p :: ps) s).1 = .ok (some text) := by
  have hdisk : Work.disk s = (.ok s.disk, s) := rfl
  obtain ⟨t, hnote, ht⟩ : ∃ t, Work.debug ("Loading template " ++ p.text) s = (.ok (), t) ∧
    t.disk = s.disk := ⟨_, rfl, rfl⟩
  rw [firstFile, Work.bind_of_ok hdisk, if_pos (Disk.isFile_of_readText h),
    Work.bind_of_ok hnote, Work.bind_of_ok (Work.readText_of_ok (ht ▸ h))]
  rfl

/-- **The template for a tag and a mode** is the text of its file. -/
theorem source_of_file {text : String} (hl : s.disk.Leads (st.templates.joinName tag) l)
    (ht : PlainName tag) (hm : (st.templates.joinName tag).Takes (templateFile mode))
    (hv : s.disk.view (l ++ [templateFile mode]) = some (.file (.text text))) :
    s.disk.readText ((st.templates.joinName tag).joinName (templateFile mode)) = .ok text ∧
      (st.source (templateName tag mode) s).1 = .ok (some text) := by
  have hloc : s.disk.locate ((st.templates.joinName tag).joinName (templateFile mode)) =
      .ok (l ++ [templateFile mode]) := by
    rw [Disk.locate_joinName hl hm.1, if_neg hm.2, if_pos (by simp [hv])]
  have hread := Disk.readText_of_view hloc hv
  refine ⟨hread, ?_⟩
  rw [DirectoryStore.source, resolve?_templateName _ ht hm.1]
  exact firstFile_of_readText hread _

/-- A mode whose file cannot be joined to a path has no template. -/
theorem source_of_not_plain (ht : PlainName tag) (hs : '/' ∉ (templateFile mode).toList)
    (hm : ¬ PlainName (templateFile mode)) (s : Site) :
    (st.source (templateName tag mode) s).1 = .ok none := by
  have hnone : ∀ p, resolve? p (templateName tag mode) = none := by
    intro p
    rw [resolve?, toList_templateName, Text.splitAll_append, Text.splitAll_of_not_mem ht.no_slash,
      Text.splitAll_of_not_mem hs]
    simp [isPlainSegment_iff, hm]
  rw [DirectoryStore.source, hnone, hnone]
  rfl

end DirectoryStore

/-! ### Rendering in a listed mode -/

/-- A text may be no template, but then it is not missing. -/
theorem Template.kind_of_read {name source : String} {f : RenderFault}
    (h : Template.read name source = .error f) : f.kind ≠ .templateNotFound := by
  rw [Template.read] at h
  split at h
  · cases h
  next g _ =>
    obtain rfl := Except.error.inj h
    rw [RenderFault.kind]
    cases g.fault <;> simp [Template.TextFault.kind]

/-- **A node is rendered with the text that is held** for its tag in a listed mode. Whatever comes of
it, the template was there. -/
theorem Node.render_of_held {r : Repository} {n : Node} {mode text : String} {modes : List String}
    {s : Site} (hmodes : r.store.listed s.disk n.tag = .ok modes) (hmode : mode ∈ modes)
    (hheld : r.store.held s.disk (templateName n.tag mode) = .ok (some text))
    (hfresh : s.kept? r.shelf (templateName n.tag mode) = none) (name : String) :
    (n.render r mode s).1 ≠ .error (.templateNotFound name) := by
  have hanswer : r.answer s (templateName n.tag mode) =
      Template.read (templateName n.tag mode) text := by
    rw [Repository.answer_of_missing hfresh, hheld]
    rfl
  rw [(n.render_apply r mode s).1, Inquiry.resultAt, Node.eval_rendering, hmodes]
  simp only [List.contains_iff_mem.2 hmode, if_true]
  rw [eval_renderNamed, hanswer]
  cases hread : Template.read (templateName n.tag mode) text with
  | ok t =>
    intro h
    simp only at h
    cases hr : (Template.renderTemplate n.childRendering t n.context).eval (r.answer s)
        (r.store.listed s.disk) _ <;> rw [hr] at h <;> cases h
  | error f =>
    intro h
    simp only [if_neg (Template.kind_of_read hread)] at h
    cases h

/-! ### A store that has just been opened -/

/-- A repository of an existing root has nothing on its shelf. -/
theorem Repository.open_apply {root : Path} {s : Site} (h : s.disk.isDirectory root = true) :
    ∃ t, Repository.open root s = (.ok ⟨.directory (.below root), s.shelves.length⟩, t) ∧
      t.disk = s.disk ∧ t.lines = s.lines ∧ ∀ name, t.kept? s.shelves.length name = none := by
  have hdisk : Work.disk s = (.ok s.disk, s) := rfl
  obtain ⟨t, hopen, hd, hl, hs⟩ : ∃ t, DirectoryStore.open root s = (.ok (.below root), t) ∧
      t.disk = s.disk ∧ t.lines = s.lines ∧ t.shelves = s.shelves := by
    rw [DirectoryStore.open, Work.bind_of_ok hdisk, if_pos h]
    exact ⟨_, rfl, rfl, rfl, rfl⟩
  refine ⟨(Work.newShelf t).2, ?_, hd, hl, fun name => ?_⟩
  · rw [← hs]
    exact Work.bind_of_ok hopen
  · simp [Site.kept?, Work.newShelf, hs]

/-- **A new repository renders a node in a listed mode** with the text that the store has for it. -/
theorem Node.render_of_source {d : Disk} {root : Path} {n : Node} {mode text : String}
    {modes : List String} (hroot : d.isDirectory root = true)
    (hmodes : ((DirectoryStore.below root).modes n.tag (.on d)).1 = .ok modes) (hmode : mode ∈ modes)
    (hsource : ((DirectoryStore.below root).source (templateName n.tag mode) (.on d)).1 =
      .ok (some text)) (name : String) :
    ((do
      let r ← Repository.open root
      n.render r mode : Work String) (.on d)).1 ≠ .error (.templateNotFound name) := by
  obtain ⟨t, hopen, hdisk, -, hfresh⟩ := Repository.open_apply (s := .on d) hroot
  have hdisk : t.disk = d := hdisk
  rw [Work.bind_of_ok hopen]
  exact n.render_of_held (hdisk ▸ hmodes) hmode (hdisk ▸ hsource) (hfresh _) name

/-! ### The modes of all tags -/

namespace CommandLine

/-- What is printed for a tag with these modes. -/
def modesLine (tag : String) (modes : List String) : String :=
  tag ++ ": " ++ ", ".intercalate modes

/-- Prints the modes of some tags. -/
def printModes (r : Repository) (tags : List String) : Work Unit :=
  tags.forM fun tag => do Work.print (modesLine tag (← r.modes tag))

variable {r : Repository} {tags : List String} {s : Site}

theorem printGroups_of_tags (h : r.tags s = (.ok tags, s)) (hne : tags ≠ []) :
    printGroups r s = printModes r tags s := by
  refine (Work.bind_of_ok h).trans ?_
  rw [if_neg (by simpa using hne)]
  rfl

/-- What the program does without a tag: it prints the modes of all tags, with a new repository. -/
theorem perform_modes {d : Disk} {root : Path} (hroot : d.isDirectory root = true)
    (htags : ∀ s : Site, s.disk = d → (DirectoryStore.below root).tags s = (.ok tags, s))
    (hne : tags ≠ []) : ∃ t : Site, t.disk = d ∧ t.lines = [] ∧ ∀ c,
      (Command.modes none (some root)).perform c (.on d) =
        printModes ⟨.directory (.below root), 0⟩ tags t := by
  obtain ⟨t, hopen, hdisk, hlines, -⟩ := Repository.open_apply (s := .on d) hroot
  refine ⟨t, hdisk, hlines, fun c => ?_⟩
  exact (Work.bind_of_ok hopen).trans (printGroups_of_tags (htags t hdisk) hne)

/-- One line for a tag, if it has modes, and a failure otherwise. -/
theorem printModes_cons (r : Repository) (tag : String) (tags : List String) (s : Site) :
    ∃ ns, printModes r (tag :: tags) s = match r.store.listed s.disk tag with
      | .error f => (.error f, { s with notices := ns })
      | .ok modes =>
        printModes r tags { s with notices := ns, lines := modesLine tag modes :: s.lines } := by
  -- the store is only looked at, which leaves notices
  obtain ⟨ns, hns⟩ := (r.store.reads_modes tag).site s
  have hresult := (r.store.reads_modes tag).result s
  refine ⟨ns, ?_⟩
  cases hl : r.store.listed s.disk tag with
  | error f =>
    have hmodes : r.modes tag s = (.error f, { s with notices := ns }) :=
      Prod.ext (hresult.trans hl) hns
    exact Work.bind_of_error (Work.bind_of_error hmodes)
  | ok modes =>
    have hmodes : r.modes tag s = (.ok modes, { s with notices := ns }) :=
      Prod.ext (hresult.trans hl) hns
    exact Work.bind_of_ok (Work.bind_of_ok hmodes)

/-- **One line for each tag**, if all of them have modes. -/
theorem printModes_of_ok {modes : String → List String}
    (h : ∀ tag ∈ tags, r.store.listed s.disk tag = .ok (modes tag)) :
    ∃ t, printModes r tags s = (.ok (), t) ∧
      t.lines.reverse = s.lines.reverse ++ tags.map fun tag => modesLine tag (modes tag) := by
  induction tags generalizing s with
  | nil => exact ⟨s, rfl, by simp⟩
  | cons tag tags ih =>
    obtain ⟨ns, hcons⟩ := printModes_cons r tag tags s
    rw [h tag List.mem_cons_self] at hcons
    obtain ⟨t, ht, hlines⟩ := ih (s := { s with
      notices := ns, lines := modesLine tag (modes tag) :: s.lines })
      fun tag ht => h tag (List.mem_cons_of_mem _ ht)
    exact ⟨t, hcons.trans ht, by rw [hlines]; simp⟩

/-- **The first tag without modes** is the one to fail for. -/
theorem printModes_of_error {before after : List String} {tag : String} {f : Failure}
    (h : ∀ tag ∈ before, ∃ modes, r.store.listed s.disk tag = .ok modes)
    (hf : r.store.listed s.disk tag = .error f) :
    (printModes r (before ++ tag :: after) s).1 = .error f := by
  induction before generalizing s with
  | nil =>
    obtain ⟨ns, hcons⟩ := printModes_cons r tag after s
    rw [hf] at hcons
    exact congrArg Prod.fst hcons
  | cons first before ih =>
    obtain ⟨ns, hcons⟩ := printModes_cons r first (before ++ tag :: after) s
    obtain ⟨modes, hm⟩ := h first List.mem_cons_self
    rw [hm] at hcons
    have hrest := ih (s := { s with notices := ns, lines := modesLine first modes :: s.lines })
      (fun tag ht => h tag (List.mem_cons_of_mem _ ht)) hf
    exact (congrArg Prod.fst hcons).trans hrest

end CommandLine

open CommandLine

/-! ### What is listed -/

/-- **What a store lists is found.** On a disk whose files hold text, a listed tag whose name can be
joined to the path of the store has modes, and a listed mode has the text of its file, so that no
rendering in it with a new repository misses the template; and if this is so of all tags the program
prints the modes of each. A listed tag whose name cannot be joined has no modes at all, and the program
fails for the first such tag. -/
theorem listed_found (d : Disk) (root : Path) (ho : d.Ordered)
    (htext : ∀ l c, d.view l = some (.file c) → ∃ text, c = .text text)
    (hroot : d.isDirectory root = true) :
    let st := DirectoryStore.below root
    ∃ tags, (st.tags (.on d)).1 = .ok tags ∧
      (∀ tag ∈ tags, ¬ st.templates.Takes tag →
        (st.modes tag (.on d)).1 = .error (.templateNotFound tag)) ∧
      (∀ tag ∈ tags, st.templates.Takes tag → ∃ modes, (st.modes tag (.on d)).1 = .ok modes ∧
        ∀ mode ∈ modes,
          ((st.templates.joinName tag).Takes (templateFile mode) → ∃ text,
            d.readText ((st.templates.joinName tag).joinName (templateFile mode)) = .ok text ∧
            (st.source (templateName tag mode) (.on d)).1 = .ok (some text) ∧
            ∀ n : Node, n.tag = tag → ∀ name, ((do
              let r ← Repository.open root
              n.render r mode : Work String) (.on d)).1 ≠ .error (.templateNotFound name)) ∧
          ('/' ∉ (templateFile mode).toList → ¬ PlainName (templateFile mode) →
            (st.source (templateName tag mode) (.on d)).1 = .ok none)) ∧
      ((∀ tag ∈ tags, st.templates.Takes tag) → tags ≠ [] →
        ∃ modes : String → List String, (∀ tag ∈ tags,
          (st.modes tag (.on d)).1 = .ok (modes tag)) ∧
        ∀ c, ∃ t, (Command.modes none (some root)).perform c (.on d) = (.ok (), t) ∧
          t.lines.reverse = tags.map fun tag => modesLine tag (modes tag)) ∧
      (∀ before tag after, tags = before ++ tag :: after →
        (∀ tag ∈ before, st.templates.Takes tag) → ¬ st.templates.Takes tag →
        ∀ c, ((Command.modes none (some root)).perform c (.on d)).1 =
          .error (.templateNotFound tag)) := by
  intro st
  obtain ⟨tags, htags, hdirs⟩ := DirectoryStore.mem_tags ho st
  have hbad : ∀ tag ∈ tags, ¬ st.templates.Takes tag →
      (st.modes tag (.on d)).1 = .error (.templateNotFound tag) := by
    intro tag ht htakes
    obtain ⟨l, hl, -⟩ := hdirs tag ht
    exact DirectoryStore.modes_of_not_takes (s := .on d) hl htakes
  -- what was listed as a directory is one on the disk, and so are the files in it
  have hmodes : ∀ tag ∈ tags, st.templates.Takes tag → ∃ l modes,
      d.Leads (st.templates.joinName tag) l ∧ (st.modes tag (.on d)).1 = .ok modes ∧
      ∀ mode ∈ modes, ∃ c, d.view (l ++ [templateFile mode]) = some (.file c) := by
    intro tag ht htakes
    obtain ⟨l, hl, hd⟩ := hdirs tag ht
    obtain ⟨hl', modes, hm, hfiles⟩ := DirectoryStore.mem_modes (s := .on d) ho hl htakes hd
    exact ⟨_, modes, hl', congrArg Prod.fst hm, hfiles⟩
  refine ⟨tags, congrArg Prod.fst (htags _ rfl), hbad, ?_, ?_, ?_⟩
  · intro tag ht htakes
    obtain ⟨l, modes, hl, hm, hfiles⟩ := hmodes tag ht htakes
    refine ⟨modes, hm, fun mode hmode => ⟨fun hfile => ?_, fun hslash hplain => ?_⟩⟩
    · obtain ⟨c, hv⟩ := hfiles mode hmode
      obtain ⟨text, rfl⟩ := htext _ _ hv
      obtain ⟨hread, hsource⟩ := DirectoryStore.source_of_file (s := .on d) hl htakes.1 hfile hv
      refine ⟨text, hread, hsource, ?_⟩
      rintro n rfl name
      exact n.render_of_source hroot hm hmode hsource name
    · exact DirectoryStore.source_of_not_plain htakes.1 hslash hplain (.on d)
  · intro hall hne
    -- the modes of a tag are what the store lists for it
    have hlisted : ∀ tag ∈ tags, (st.modes tag (.on d)).1 =
        .ok ((st.modes tag (.on d)).1.toOption.getD []) := by
      intro tag ht
      obtain ⟨-, modes, -, hm, -⟩ := hmodes tag ht (hall tag ht)
      rw [hm]
      rfl
    obtain ⟨t, rfl, hlines, hperform⟩ := perform_modes hroot htags hne
    obtain ⟨u, hu, hprinted⟩ := printModes_of_ok (r := ⟨.directory st, 0⟩) hlisted
    exact ⟨_, hlisted, fun c => ⟨u, (hperform c).trans hu, by rw [hprinted, hlines]; rfl⟩⟩
  · rintro before tag after rfl hbefore htakes c
    obtain ⟨t, rfl, -, hperform⟩ := perform_modes hroot htags (by simp)
    rw [hperform c]
    refine printModes_of_error (fun tag ht => ?_) (hbad tag (by simp) htakes)
    obtain ⟨-, modes, -, hm, -⟩ := hmodes tag (List.mem_append_left _ ht) (hbefore tag ht)
    exact ⟨modes, hm⟩

/-- A store with one template, whose tag is the name of a directory. -/
def stocked (tag : String) : Disk :=
  ⟨["work", "store", "templates", tag, "m.jinja"].foldr (fun n e => .directory [(n, e)])
    (.file (.text "text")), ["work"]⟩

/-- There is no other file than that of the template. -/
theorem text_of_stocked {tag : String} {l : Location} {c : Content}
    (h : (stocked tag).view l = some (.file c)) : c = .text "text" := by
  rw [stocked] at h
  generalize ["work", "store", "templates", tag, "m.jinja"] = names at h
  change DiskEntry.view _ l = _ at h
  induction names generalizing l with
  | nil =>
    cases l with
    | nil => simpa [DiskEntry.standing, eq_comm] using h
    | cons k l => simp at h
  | cons n names ih =>
    cases l with
    | nil => simp [DiskEntry.standing] at h
    | cons k l =>
      rw [List.foldr_cons, DiskEntry.view_directory_cons, List.lookup_cons] at h
      split at h
      · exact ih h
      · cases h

/-- A store with one template, for which the program prints a line. -/
theorem listed_found_tidy :
    ((DirectoryStore.below ⟨"store"⟩).source (templateName "a" "m") (.on (stocked "a"))).1 =
        .ok (some "text") ∧
      ∃ t, (Command.modes none (some ⟨"store"⟩)).perform .standard
        (.on (stocked "a")) = (.ok (), t) ∧ t.lines.reverse = ["a: m"] := by
  obtain ⟨tags, htags, -, hfound, hprinted, -⟩ := listed_found (stocked "a") ⟨"store"⟩
    (by simp [Disk.Ordered, stocked, DiskEntry.Ordered, DiskEntry.AllOrdered, Entries.Increasing])
    (fun _ _ h => ⟨_, text_of_stocked h⟩) (by decide +kernel)
  obtain rfl : ["a"] = tags := Except.ok.inj htags
  have htakes : (DirectoryStore.below ⟨"store"⟩).templates.Takes "a" :=
    ⟨isPlainSegment_iff.1 (by decide), by decide +kernel⟩
  obtain ⟨modes, hmodes, htexts⟩ := hfound "a" List.mem_cons_self htakes
  obtain rfl : ["m"] = modes := Except.ok.inj hmodes
  obtain ⟨text, hread, hsource, -⟩ := (htexts "m" List.mem_cons_self).1
    ⟨isPlainSegment_iff.1 (by decide), by decide +kernel⟩
  obtain rfl : "text" = text := Except.ok.inj hread
  obtain ⟨modes, hmodes, hlines⟩ := hprinted (by simpa using htakes) (by simp)
  have hline : ["m"] = modes "a" := Except.ok.inj (hmodes "a" List.mem_cons_self)
  obtain ⟨t, ht, hlines⟩ := hlines .standard
  refine ⟨hsource, t, ht, ?_⟩
  rw [hlines, List.map_singleton, ← hline]
  rfl

/-- A tag with a backslash: it is listed, but it has no modes, and the program fails. -/
theorem listed_backslash :
    ((DirectoryStore.below ⟨"store"⟩).tags (.on (stocked "a\\b"))).1 = .ok ["a\\b"] ∧
      ((DirectoryStore.below ⟨"store"⟩).modes "a\\b" (.on (stocked "a\\b"))).1 =
        .error (.templateNotFound "a\\b") ∧
      ((Command.modes none (some ⟨"store"⟩)).perform .standard
        (.on (stocked "a\\b"))).1 = .error (.templateNotFound "a\\b") := by
  refine ⟨?_, ?_, ?_⟩
  · rfl
  · rfl
  · rfl

end Scaffold
