import Scaffold.Proofs.Disk.Ordered
import Scaffold.Proofs.Disk.Reach
import Scaffold.Proofs.Store.Directory
import Scaffold.Proofs.Store.Memory

/-!
# Stores in memory and in directories

A directory holds a store in memory if its files are the templates and macros of the store, each
under its name, and its tags are those of the store (`Disk.Holds`). Then the store in the directory
gives the same answers as the store in memory to every question, whatever text is asked for
(`answers_of_holds`), as long as the file system takes the paths of what is held.
-/

namespace Scaffold

open Disk (Reaches)

/-- The pieces of a name between its slashes. -/
def segments (name : String) : List String := (Text.splitAll '/' name.toList).map String.ofList

/-- **A directory that holds a store.** Right below `templates` stand the groups, below them and
nowhere else the templates, and below `macros` the macros under the segments of their names. -/
structure Disk.Holds (d : Disk) (l : Location) (m : MemoryStore) : Prop where
  group_iff : ∀ tag, d.view (l ++ ["templates", tag]) = some .directory ↔ tag ∈ m.tags
  template_iff : ∀ names c, d.view (l ++ "templates" :: names) = some (.file c) ↔
    ∃ tag mode text, m.template? tag mode = some text ∧ names = [tag, templateFile mode] ∧
      c = .text text
  macro_iff : ∀ names c, d.view (l ++ "macros" :: names) = some (.file c) ↔
    ∃ name text, m.macros.lookup name = some text ∧ names = segments name ∧ c = .text text

namespace MemoryStore

/-- **Tags, modes and the segments of macros are plain names.** -/
structure Plain (m : MemoryStore) : Prop where
  tag : ∀ tag ∈ m.tags, PlainName tag
  mode : ∀ tag mode, (m.template? tag mode).isSome → PlainName mode
  segment : ∀ name, (m.macros.lookup name).isSome → ∀ n ∈ segments name, PlainName n

/-- **The file system takes the paths** of all that a store holds, below a root. -/
structure Fits (m : MemoryStore) (root : Path) : Prop where
  tag : ∀ tag ∈ m.tags, Reaches root ["templates", tag]
  template : ∀ tag mode, (m.template? tag mode).isSome →
    Reaches root ["templates", tag, templateFile mode]
  macroFile : ∀ name, (m.macros.lookup name).isSome → Reaches root ("macros" :: segments name)

end MemoryStore

/-! ### Segments of names -/

theorem segments_injective : Function.Injective segments := by
  intro a b h
  have hsplit : Text.splitAll '/' a.toList = Text.splitAll '/' b.toList :=
    List.map_injective_iff.2 (fun _ _ => String.ofList_injective) h
  refine String.toList_injective ?_
  rw [← Text.intercalate_splitAll '/' a.toList, hsplit, Text.intercalate_splitAll]

theorem segments_templateName {tag mode : String} (ht : '/' ∉ tag.toList)
    (hm : '/' ∉ (templateFile mode).toList) :
    segments (templateName tag mode) = [tag, templateFile mode] := by
  rw [segments, toList_templateName, Text.splitAll_append, Text.splitAll_of_not_mem ht,
    Text.splitAll_of_not_mem hm]
  simp

theorem plainName_templateFile {mode : String} (h : PlainName mode) :
    PlainName (templateFile mode) := by
  have hlist : (templateFile mode).toList = mode.toList ++ ".jinja".toList := by
    simp [templateFile, templateSuffix, templateExtension]
  have hlength : (templateFile mode).toList.length = mode.toList.length + 6 := by simp [hlist]
  refine ⟨?_, ?_, ?_, ?_, ?_, ?_⟩
  · rintro h; simp [h] at hlength
  · rintro h; simp [h] at hlength
  · rintro h; simp [h] at hlength
  · simp [hlist, h.no_slash]
  · simp [hlist, h.no_backslash]
  · simp [hlist, h.no_null]

/-! ### The same answers -/

namespace MemoryStore

theorem mem_tags_of_template? {m : MemoryStore} {tag mode : String}
    (h : (m.template? tag mode).isSome) : tag ∈ m.tags := by
  rw [template?, Option.isSome_bind] at h
  rw [mem_tags, ← Entries.isSome_lookup]
  exact Option.isSome_of_any h

/-- The name of a template is that of its tag and that of its file, and both are plain. -/
theorem Plain.segments_template {m : MemoryStore} {tag mode : String} (hp : m.Plain)
    (hsome : (m.template? tag mode).isSome) : PlainName tag ∧ PlainName (templateFile mode) ∧
      segments (templateName tag mode) = [tag, templateFile mode] := by
  have htag := hp.tag tag (mem_tags_of_template? hsome)
  have hfile := plainName_templateFile (hp.mode tag mode hsome)
  exact ⟨htag, hfile, segments_templateName htag.no_slash hfile.no_slash⟩

end MemoryStore

theorem plainName_templates : PlainName "templates" := isPlainSegment_iff.1 (by decide)

theorem plainName_macros : PlainName "macros" := isPlainSegment_iff.1 (by decide)

namespace DirectoryStore

variable {d : Disk} {root : Path} {l : Location} {m : MemoryStore} {s : Site} {q : String}

theorem resolve?_of_plain (p : Path) (h : ∀ n ∈ segments q, PlainName n) :
    resolve? p q = some (p.joinNames (segments q)) := by
  refine if_pos ?_
  simpa [segments, isPlainSegment_iff] using h

theorem resolve?_of_not_plain (p : Path) (h : ¬ ∀ n ∈ segments q, PlainName n) :
    resolve? p q = none := by
  refine if_neg ?_
  simpa [segments, isPlainSegment_iff] using h

/-- **The tags** are the groups in the directory. -/
theorem tags_of_holds (ho : s.disk.Ordered) (hl : s.disk.Leads root l) (hh : s.disk.Holds l m)
    (hp : m.Plain) (hf : m.Fits root) : ((below root).tags s).1 = .ok m.tags := by
  have hdisk : Work.disk s = (.ok s.disk, s) := rfl
  have hplain : ∀ n ∈ ["templates"], PlainName n := by simp [plainName_templates]
  have hdir := Disk.isDirectory_joinNames hl hplain (by simp)
  rw [DirectoryStore.tags, Work.bind_of_ok hdisk]
  by_cases hd : s.disk.isDirectory (below root).templates = true
  · obtain ⟨hl', hc⟩ := hl.joinNames hplain (by simp) hd
    obtain ⟨es, hes, hdirs, -⟩ := Disk.exists_list ho hl' hc
    have hes : s.disk.list (below root).templates = .ok es := hes
    rw [if_pos hd, Work.bind_of_ok (listing_apply hes)]
    refine congrArg Except.ok (distinctSorted_congr fun tag => ?_)
    rw [← MemoryStore.mem_tags, ← hh.group_iff]
    have hview := hdirs tag
    rw [List.append_assoc, List.singleton_append] at hview
    rw [← hview]
    simp
  · rw [if_neg hd]
    -- a group would stand in the directory that is missing
    have hnone : m.tags = [] := by
      refine List.eq_nil_iff_forall_not_mem.2 fun tag ht => hd (hdir.2 ⟨?_, ?_⟩)
      · have hreach : Reaches root (["templates"] ++ [tag]) := hf.tag tag ht
        exact hreach.left (by simpa using hp.tag tag ht)
      · by_contra hnd
        have hbelow := Disk.view_append_of_not_directory (m := [tag]) hnd (by simp)
        rw [List.append_assoc, List.singleton_append, (hh.group_iff tag).2 ht] at hbelow
        cases hbelow
    rw [hnone]
    rfl

/-- **The modes of a group** are those of the files in it. -/
theorem modes_of_group {group : List (String × String)} (ho : s.disk.Ordered)
    (hl : s.disk.Leads root l) (hh : s.disk.Holds l m) (hp : m.Plain) (hf : m.Fits root)
    (hg : m.groups.lookup q = some group) :
    ((below root).modes q s).1 = .ok (distinctSorted (Entries.keys group)) := by
  have hq : q ∈ m.tags := by rw [MemoryStore.mem_tags, ← Entries.isSome_lookup, hg]; rfl
  have htemplate : ∀ mode, m.template? q mode = group.lookup mode := fun mode => by
    rw [MemoryStore.template?, hg, Option.bind_some]
  have hplain : ∀ n ∈ ["templates", q], PlainName n := by
    simp [plainName_templates, hp.tag q hq]
  have hd := (Disk.isDirectory_joinNames hl hplain (by simp)).2 ⟨hf.tag q hq, (hh.group_iff q).2 hq⟩
  obtain ⟨hl', hc⟩ := hl.joinNames hplain (by simp) hd
  obtain ⟨es, hes, -, hfiles⟩ := Disk.exists_list ho hl' hc
  have hmodes : (below root).modes q s =
      (.ok (distinctSorted ((es.filter Prod.snd).filterMap fun e => modeOf? e.1)), s) :=
    modes_of_list (hp.tag q hq) hd hes
  rw [hmodes]
  refine congrArg Except.ok (distinctSorted_congr fun mode => ?_)
  rw [← Entries.isSome_lookup, ← htemplate, List.mem_filterMap]
  constructor
  · -- the file of a listed mode is that of a template for this tag
    rintro ⟨⟨n, b⟩, hn, hmode⟩
    obtain ⟨hn, hb⟩ := List.mem_filter.1 hn
    obtain rfl : b = true := hb
    obtain ⟨rfl, -⟩ := modeOf?_eq_some.1 hmode
    obtain ⟨c, hv⟩ := (hfiles _).1 hn
    have hv : s.disk.view (l ++ "templates" :: [q, templateFile mode]) = some (.file c) := by
      simpa using hv
    obtain ⟨tag, mode', text, ht, hnames, -⟩ := (hh.template_iff _ _).1 hv
    simp only [List.cons.injEq, and_true] at hnames
    obtain ⟨rfl, hfile⟩ := hnames
    rw [templateFile_injective hfile, ht]
    rfl
  · intro hsome
    obtain ⟨text, ht⟩ := Option.isSome_iff_exists.1 hsome
    have hv : s.disk.view (l ++ ["templates", q] ++ [templateFile mode]) =
        some (.file (.text text)) := by
      rw [List.append_assoc]
      exact (hh.template_iff _ _).2 ⟨q, mode, text, ht, rfl, rfl⟩
    have hmode := modeOf?_eq_some.2 ⟨rfl, (hp.mode q mode hsome).ne_empty⟩
    exact ⟨(templateFile mode, true), List.mem_filter.2 ⟨(hfiles _).2 ⟨_, hv⟩, rfl⟩, hmode⟩

/-- A text that is no tag has no modes. -/
theorem modes_of_no_group (hl : s.disk.Leads root l) (hh : s.disk.Holds l m) (hq : q ∉ m.tags) :
    ((below root).modes q s).1 = .error (.templateNotFound q) := by
  refine congrArg Prod.fst (modes_of_missing fun hplain => Bool.eq_false_iff.2 fun hd => ?_)
  have hplain' : ∀ n ∈ ["templates", q], PlainName n := by simp [plainName_templates, hplain]
  have hd : s.disk.isDirectory (root.joinNames ["templates", q]) = true := hd
  exact hq ((hh.group_iff q).1 ((Disk.isDirectory_joinNames hl hplain' (by simp)).1 hd).2)

/-- **The modes** are the same. -/
theorem modes_of_holds (ho : s.disk.Ordered) (hl : s.disk.Leads root l) (hh : s.disk.Holds l m)
    (hp : m.Plain) (hf : m.Fits root) (q : String) :
    ((below root).modes q s).1 = ((Store.memory m).modes q s).1 := by
  simp only [Store.modes, MemoryStore.modes?]
  cases hg : m.groups.lookup q with
  | some group => exact modes_of_group ho hl hh hp hf hg
  | none =>
    refine modes_of_no_group hl hh ?_
    rw [MemoryStore.mem_tags, ← Entries.isSome_lookup, hg]
    simp

/-! ### Texts -/

theorem firstFile_of_missing {p : Path} (h : ¬ s.disk.isFile p = true) (ps : List (Option Path)) :
    firstFile (some p :: ps) s = firstFile ps s := by
  have hdisk : Work.disk s = (.ok s.disk, s) := rfl
  rw [firstFile, Work.bind_of_ok hdisk, if_neg h]

/-- Where a template stands, that of its name is found. -/
theorem source_of_template {tag mode text : String} (hl : s.disk.Leads root l)
    (hh : s.disk.Holds l m) (hp : m.Plain) (hf : m.Fits root)
    (ht : m.template? tag mode = some text) :
    ((below root).source (templateName tag mode) s).1 = .ok (some text) := by
  have hsome : (m.template? tag mode).isSome := by simp [ht]
  obtain ⟨htag, hfile, hsegments⟩ := hp.segments_template hsome
  have hplain : ∀ n ∈ segments (templateName tag mode), PlainName n := by
    simp [hsegments, htag, hfile]
  have hread := Disk.readText_joinNames ("templates" :: segments (templateName tag mode)) hl
    (by simpa [plainName_templates] using hplain) (by simp) (hsegments ▸ hf.template tag mode hsome)
    ((hh.template_iff _ _).2 ⟨tag, mode, text, ht, hsegments, rfl⟩)
  rw [DirectoryStore.source, resolve?_of_plain _ hplain]
  exact firstFile_of_readText hread _

/-- Where no template stands, the macro of this name is found. -/
theorem source_of_no_template (hl : s.disk.Leads root l) (hh : s.disk.Holds l m) (hp : m.Plain)
    (hf : m.Fits root) (hno : ∀ tag mode, (m.template? tag mode).isSome → q ≠ templateName tag mode) :
    ((below root).source q s).1 = .ok (m.macros.lookup q) := by
  by_cases hplain : ∀ n ∈ segments q, PlainName n
  · have hplain' : ∀ k, PlainName k → ∀ n ∈ k :: segments q, PlainName n := fun k hk => by
      simpa [hk] using hplain
    have hmissing : ¬ s.disk.isFile (root.joinNames ("templates" :: segments q)) = true := by
      rw [Disk.isFile_joinNames hl (hplain' _ plainName_templates) (by simp)]
      rintro ⟨-, c, hv⟩
      obtain ⟨tag, mode, text, ht, hnames, -⟩ := (hh.template_iff _ _).1 hv
      have hsome : (m.template? tag mode).isSome := by simp [ht]
      obtain ⟨-, -, hsegments⟩ := hp.segments_template hsome
      exact hno tag mode hsome (segments_injective (hnames.trans hsegments.symm))
    rw [DirectoryStore.source, resolve?_of_plain _ hplain, resolve?_of_plain _ hplain]
    refine (congrArg Prod.fst (firstFile_of_missing hmissing _)).trans ?_
    cases hm : m.macros.lookup q with
    | some text =>
      have hread := Disk.readText_joinNames ("macros" :: segments q) hl
        (hplain' _ plainName_macros) (by simp) (hf.macroFile q (by simp [hm]))
        ((hh.macro_iff _ _).2 ⟨q, text, hm, rfl, rfl⟩)
      exact firstFile_of_readText hread []
    | none =>
      have hmissing' : ¬ s.disk.isFile (root.joinNames ("macros" :: segments q)) = true := by
        rw [Disk.isFile_joinNames hl (hplain' _ plainName_macros) (by simp)]
        rintro ⟨-, c, hv⟩
        obtain ⟨name, text, hname, hnames, -⟩ := (hh.macro_iff _ _).1 hv
        rw [segments_injective hnames, hname] at hm
        cases hm
      exact congrArg Prod.fst (firstFile_of_missing hmissing' [])
  · have hmacro : m.macros.lookup q = none := by
      by_contra hm
      exact hplain (hp.segment q (Option.isSome_iff_ne_none.2 hm))
    rw [DirectoryStore.source, resolve?_of_not_plain _ hplain, resolve?_of_not_plain _ hplain, hmacro]
    rfl

/-- **The texts** are the same, under every name. -/
theorem source_of_holds (hl : s.disk.Leads root l) (hh : s.disk.Holds l m) (hp : m.Plain)
    (hf : m.Fits root) (q : String) : ((below root).source q s).1 = .ok (m.source? q) := by
  by_cases ht : ∃ tag mode, (m.template? tag mode).isSome ∧ q = templateName tag mode
  · obtain ⟨tag, mode, hsome, rfl⟩ := ht
    obtain ⟨text, htext⟩ := Option.isSome_iff_exists.1 hsome
    have htag := hp.tag tag (MemoryStore.mem_tags_of_template? hsome)
    rw [source_of_template hl hh hp hf htext, MemoryStore.source?_append htag.no_slash, htext]
    rfl
  · have hno : ∀ tag mode, (m.template? tag mode).isSome → q ≠ templateName tag mode :=
      fun tag mode hsome hq => ht ⟨tag, mode, hsome, hq⟩
    -- in memory, too, only the name of a template leads to one
    have htemplate : ∀ tag mode, splitTemplateName? q = some (tag, mode) →
        m.template? tag mode = none := by
      intro tag mode hsplit
      by_contra hne
      exact hno tag mode (Option.isSome_iff_ne_none.2 hne) (eq_templateName_of_split hsplit).1
    rw [source_of_no_template hl hh hp hf hno, MemoryStore.source?]
    cases hsplit : splitTemplateName? q with
    | none => rfl
    | some p =>
      obtain ⟨tag, mode⟩ := p
      have hnone := htemplate tag mode hsplit
      rw [MemoryStore.template?] at hnone
      simp [hnone]

end DirectoryStore

/-- **The two kinds of stores are interchangeable.** If the directory of a root holds a store, whose
tags, modes and macros have plain names, and the file system takes the paths of what is held, then the
store that is opened on the root has the tags of the one in memory, and gives the same answer to every
question for modes or for a text. -/
theorem answers_of_holds {d : Disk} {root : Path} {l : Location} {m : MemoryStore} (ho : d.Ordered)
    (hl : d.locate root = .ok l) (hd : d.view l = some .directory) (hh : d.Holds l m)
    (hp : m.Plain) (hf : m.Fits root) :
    ∀ s : Site, s.disk = d → ∃ st, (DirectoryStore.open root s).1 = .ok st ∧
      ((Store.directory st).tags s).1 = ((Store.memory m).tags s).1 ∧
      ∀ q, ((Store.directory st).modes q s).1 = ((Store.memory m).modes q s).1 ∧
        ((Store.directory st).source q s).1 = ((Store.memory m).source q s).1 := by
  rintro s rfl
  have hroot : s.disk.isDirectory root = true := Disk.isDirectory_iff.2 ⟨l, hl, hd⟩
  obtain ⟨hc, l', hl'⟩ := Disk.isDirectory_iff_leads.1 hroot
  obtain rfl : l' = l := Except.ok.inj ((hl'.locate hc).symm.trans hl)
  refine ⟨.below root, ?_, ?_, fun q => ⟨?_, ?_⟩⟩
  · have hdisk : Work.disk s = (.ok s.disk, s) := rfl
    rw [DirectoryStore.open, Work.bind_of_ok hdisk, if_pos hroot]
    rfl
  · exact DirectoryStore.tags_of_holds ho hl' hh hp hf
  · exact DirectoryStore.modes_of_holds ho hl' hh hp hf q
  · exact DirectoryStore.source_of_holds hl' hh hp hf q

/-! ### A store and a directory that holds it -/

theorem DiskEntry.view_directory_entry (k j : String) (e : DiskEntry) (es : List (String × DiskEntry))
    (l : Location) : (directory ((k, e) :: es)).view (j :: l) =
      if j = k then e.view l else (directory es).view (j :: l) := by
  rw [view_directory_cons, List.lookup_cons]
  by_cases h : j = k
  · simp [h]
  · have hb : (j == k) = false := by simpa using h
    simp [h, hb, view_directory_cons]

theorem DiskEntry.view_empty (j : String) (l : Location) : (directory []).view (j :: l) = none := by
  simp [view_directory_cons]

theorem DiskEntry.view_file_eq (c c' : Content) (l : Location) :
    (file c).view l = some (.file c') ↔ l = [] ∧ c = c' := by
  cases l with
  | nil => simp [standing]
  | cons k l => simp

/-- A template, an empty group, and a macro under the name of the template. -/
def MemoryStore.mixed : MemoryStore := .ofInsertions [.template "a" "m" "old", .group "b",
  .macroFile "a/m.jinja" "hidden", .template "a" "m" "text"]

/-- The directory `store` with these files. -/
def Disk.mixed : Disk :=
  let file (text : String) : DiskEntry := .directory [("m.jinja", .file (.text text))]
  ⟨.directory [("work", .directory [("store", .directory
    [("macros", .directory [("a", file "hidden")]),
      ("templates", .directory [("a", file "text"), ("b", .directory [])])])])], ["work"]⟩

namespace MemoryStore

theorem tags_mixed : mixed.tags = ["a", "b"] := by rfl

theorem template?_mixed {tag mode text : String} :
    mixed.template? tag mode = some text ↔ tag = "a" ∧ mode = "m" ∧ text = "text" := by
  have hgroups : mixed.groups = [("a", [("m", "text")]), ("b", [])] := by rfl
  rw [template?, hgroups]
  simp only [List.lookup_cons]
  grind

theorem macros_mixed {name text : String} : mixed.macros.lookup name = some text ↔
    name = "a/m.jinja" ∧ text = "hidden" := by
  have hmacros : mixed.macros = [("a/m.jinja", "hidden")] := by rfl
  rw [hmacros]
  simp only [List.lookup_cons]
  grind

theorem segments_mixed : segments "a/m.jinja" = ["a", "m.jinja"] := by rfl

theorem plain_mixed : mixed.Plain := by
  have ha : PlainName "a" := isPlainSegment_iff.1 (by decide)
  have hb : PlainName "b" := isPlainSegment_iff.1 (by decide)
  have hm : PlainName "m" := isPlainSegment_iff.1 (by decide)
  have hfile : PlainName "m.jinja" := isPlainSegment_iff.1 (by decide)
  refine ⟨?_, fun tag mode h => ?_, fun name h => ?_⟩
  · simp [tags_mixed, ha, hb]
  · obtain ⟨text, ht⟩ := Option.isSome_iff_exists.1 h
    obtain ⟨-, rfl, -⟩ := template?_mixed.1 ht
    exact hm
  · obtain ⟨text, ht⟩ := Option.isSome_iff_exists.1 h
    obtain ⟨rfl, -⟩ := macros_mixed.1 ht
    simp [segments_mixed, ha, hfile]

end MemoryStore

theorem Disk.holds_mixed : mixed.Holds ["work", "store"] MemoryStore.mixed := by
  have hfile : templateFile "m" = "m.jinja" := by decide
  have hview : ∀ k names, mixed.view (["work", "store"] ++ k :: names) =
      mixed.view ("work" :: "store" :: k :: names) := fun _ _ => rfl
  refine ⟨fun tag => ?_, fun names c => ?_, fun names c => ?_⟩
  · rw [MemoryStore.tags_mixed, hview]
    by_cases ha : tag = "a" <;> by_cases hb : tag = "b" <;>
      simp [view, mixed, DiskEntry.view_directory_entry, DiskEntry.view_empty, DiskEntry.standing,
        ha, hb]
  · simp only [hview, MemoryStore.template?_mixed]
    rcases names with _ | ⟨tag, _ | ⟨name, names⟩⟩
    · simp [view, mixed, DiskEntry.view_directory_entry, DiskEntry.standing]
    · by_cases ha : tag = "a" <;> by_cases hb : tag = "b" <;>
        simp [view, mixed, DiskEntry.view_directory_entry, DiskEntry.view_empty, DiskEntry.standing,
          ha, hb]
    · simp [view, mixed, DiskEntry.view_directory_entry, DiskEntry.view_empty,
        DiskEntry.view_file_eq, and_assoc, eq_comm (a := c), hfile]
  · simp only [hview, MemoryStore.macros_mixed]
    rcases names with _ | ⟨tag, _ | ⟨name, names⟩⟩
    · simp [view, mixed, DiskEntry.view_directory_entry, DiskEntry.standing,
        MemoryStore.segments_mixed]
    · by_cases ha : tag = "a" <;>
        simp [view, mixed, DiskEntry.view_directory_entry, DiskEntry.view_empty, DiskEntry.standing,
          ha, MemoryStore.segments_mixed]
    · simp [view, mixed, DiskEntry.view_directory_entry, DiskEntry.view_empty,
        DiskEntry.view_file_eq, and_assoc, eq_comm (a := c), MemoryStore.segments_mixed]

/-- Under the name of a template that hides a macro, both stores have the template. -/
theorem answers_of_mixed : ∃ st, (DirectoryStore.open ⟨"store"⟩ (.on Disk.mixed)).1 = .ok st ∧
    ((Store.directory st).source "a/m.jinja" (.on Disk.mixed)).1 = .ok (some "text") := by
  have hfits : MemoryStore.mixed.Fits ⟨"store"⟩ := by
    have hfile : templateFile "m" = "m.jinja" := by decide
    refine ⟨fun tag ht => ?_, fun tag mode h => ?_, fun name h => ?_⟩
    · rw [MemoryStore.tags_mixed] at ht
      rcases List.mem_pair.1 ht with rfl | rfl
      · exact ⟨by decide +kernel, by decide +kernel⟩
      · exact ⟨by decide +kernel, by decide +kernel⟩
    · obtain ⟨text, ht⟩ := Option.isSome_iff_exists.1 h
      obtain ⟨rfl, rfl, -⟩ := MemoryStore.template?_mixed.1 ht
      exact ⟨by decide +kernel, by decide +kernel⟩
    · obtain ⟨text, ht⟩ := Option.isSome_iff_exists.1 h
      obtain ⟨rfl, -⟩ := MemoryStore.macros_mixed.1 ht
      exact ⟨by decide +kernel, by decide +kernel⟩
  have hordered : Disk.mixed.Ordered := by
    have hdirectories : "macros" < "templates" := by decide
    have htags : "a" < "b" := by decide
    simp only [Disk.Ordered, Disk.mixed, DiskEntry.Ordered, DiskEntry.AllOrdered,
      Entries.Increasing, Entries.keys, List.map_cons, List.map_nil, List.pairwise_cons,
      List.forall_mem_singleton, List.Pairwise.nil, List.not_mem_nil, false_implies, implies_true,
      hdirectories, htags, and_self]
  have hlocate : Disk.mixed.locate ⟨"store"⟩ = .ok ["work", "store"] := by decide +kernel
  obtain ⟨st, hopen, -, hq⟩ := answers_of_holds hordered hlocate (by rfl) Disk.holds_mixed
    MemoryStore.plain_mixed hfits (.on Disk.mixed) rfl
  have hmemory : MemoryStore.mixed.source? "a/m.jinja" = some "text" := by decide +kernel
  exact ⟨st, hopen, (hq "a/m.jinja").2.trans (congrArg Except.ok hmemory)⟩

/-! ### A root that is too long -/

/-- The root `store` with slashes at its end. -/
def slashed (n : Nat) : Path := ⟨"store" ++ String.ofList (List.replicate n '/')⟩

theorem toList_slashed (n : Nat) :
    (slashed n).text.toList = "store".toList ++ List.replicate n '/' := by simp [slashed]

theorem byteLength_slashed (n : Nat) : Text.byteLength (slashed n).text.toList = n + 5 := by
  have hslashes : Text.byteLength (List.replicate n '/') = n := by
    induction n with
    | zero => rfl
    | succ n ih =>
      rw [List.replicate_succ, Text.byteLength, ih, Nat.add_comm]
      rfl
  rw [toList_slashed, Text.byteLength_append, hslashes, Nat.add_comm]
  rfl

theorem names_slashed (n : Nat) : (slashed n).names = ["store".toList] := by
  have hslashes : ∀ cs : List Char, (Text.splitAll '/' (cs ++ List.replicate n '/')).filter (· != []) =
      (Text.splitAll '/' cs).filter (· != []) := by
    induction n with
    | zero => simp
    | succ n ih =>
      intro cs
      have hcs : cs ++ List.replicate (n + 1) '/' = (cs ++ List.replicate n '/') ++ '/' :: [] := by
        rw [List.replicate_succ']
        simp
      rw [hcs, Text.splitAll_append, List.filter_append, ih]
      simp [Text.splitAll]
  rw [Path.names_of_text (toList_slashed n), hslashes]
  rfl

variable {n : Nat}

theorem leads_slashed (n : Nat) : Disk.mixed.Leads (slashed n) ["work", "store"] := by
  refine ⟨?_, ?_, rfl⟩
  · rw [toList_slashed]
    simp
  · have horigin : Disk.mixed.origin (slashed n) = ["work"] := by
      rw [Disk.origin, Path.isAbsolute, toList_slashed]
      rfl
    rw [names_slashed, horigin]
    rfl

theorem check_slashed (hn : n + 5 < Disk.pathLimit) : Disk.check (slashed n) = .ok () := by
  have hlength := byteLength_slashed n
  refine Disk.check_eq_ok.2 ⟨(leads_slashed n).no_null, fun h => ?_, by rwa [hlength]⟩
  rw [h, String.toList_empty, Text.byteLength] at hlength
  omega

theorem not_reaches_slashed (hn : Disk.pathLimit ≤ n + 14) :
    ¬ Reaches (slashed n) ["templates"] := by
  rintro ⟨hpath, -⟩
  have hlead : n + 5 ≤ Text.byteLength (slashed n).lead := by
    rw [← byteLength_slashed, Path.lead]
    split <;> simp [Text.byteLength_append]
  have hname : Text.byteLength "templates".toList = 9 := by rfl
  rw [Path.joinNames_singleton, Path.toList_joinName plainName_templates, Text.byteLength_append,
    hname] at hpath
  omega

theorem not_isDirectory_slashed (hn : Disk.pathLimit ≤ n + 14) :
    ¬ Disk.mixed.isDirectory (DirectoryStore.below (slashed n)).templates = true := by
  intro hd
  have hplain : ∀ k ∈ ["templates"], PlainName k := by simp [plainName_templates]
  exact not_reaches_slashed hn
    ((Disk.isDirectory_joinNames (leads_slashed n) hplain (by simp)).1 hd).1

/-- **A root with so many slashes** at its end that the file system takes its own path and no longer
one: the directory holds the store, but no tag is found there. -/
theorem tags_of_slashed :
    Disk.mixed.Holds ["work", "store"] MemoryStore.mixed ∧ MemoryStore.mixed.Plain ∧
      Disk.mixed.locate (slashed 4085) = .ok ["work", "store"] ∧
      ∃ st, (DirectoryStore.open (slashed 4085) (.on Disk.mixed)).1 = .ok st ∧
        ((Store.directory st).tags (.on Disk.mixed)).1 = .ok [] ∧
        ((Store.memory .mixed).tags (.on Disk.mixed)).1 = .ok ["a", "b"] := by
  have hlimit : Disk.pathLimit = 4096 := rfl
  have hcheck : Disk.check (slashed 4085) = .ok () := check_slashed (by omega)
  have hroot : Disk.mixed.isDirectory (slashed 4085) = true :=
    Disk.isDirectory_iff_leads.2 ⟨hcheck, _, leads_slashed 4085⟩
  have hdir : ¬ Disk.mixed.isDirectory (DirectoryStore.below (slashed 4085)).templates = true :=
    not_isDirectory_slashed (by omega)
  have hdisk : Work.disk (.on Disk.mixed) = (.ok Disk.mixed, .on Disk.mixed) := rfl
  refine ⟨Disk.holds_mixed, MemoryStore.plain_mixed, (leads_slashed 4085).locate hcheck,
    .below (slashed 4085), ?_, ?_, ?_⟩
  · rw [DirectoryStore.open, Work.bind_of_ok hdisk, if_pos hroot]
    rfl
  · rw [Store.tags, DirectoryStore.tags, Work.bind_of_ok hdisk, if_neg hdir]
    rfl
  · exact congrArg Except.ok MemoryStore.tags_mixed

end Scaffold
