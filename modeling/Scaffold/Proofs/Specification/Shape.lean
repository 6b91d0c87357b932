import Mathlib.Data.List.Forall2
import Scaffold.Proofs.Markup.RoundTrip
import Scaffold.Specification.Markup

/-!
# The trees that are specifications

A tree `HasShape` if it has what a specification needs, each thing in the first child of its name;
what else it has does not matter. `Describes` says which specification such a tree holds, with its
entries one by one in their order. A specification is read from a tree exactly if the tree describes
it (`ofNode_eq_ok_iff`). The trees of XML documents have no attributes but texts, so that those of
the right shape, and no others, describe a specification (`exists_describes_iff`). So the tree of a
document decides whether it is a specification, and which (`ofMarkup_exact`).
-/

namespace Scaffold.Specification

open Markup

variable {n c root : Node} {ns : List Node} {tag t : String} {e : LayoutEntry}
  {es : List LayoutEntry} {s : Specification}

/-! ### The shape of a specification -/

/-- The first child of a name. -/
def FirstChild (n : Node) (tag : String) (c : Node) : Prop :=
  ∃ before after, n.children = before ++ c :: after ∧ c.tag = tag ∧ ∀ b ∈ before, b.tag ≠ tag

/-- The text of the first child of a name, if it is not blank. -/
def NamedText (n : Node) (tag t : String) : Prop :=
  ∃ c, FirstChild n tag c ∧ c.text? = some t ∧ Text.isBlankText t = false

/-- **A directory or a file with a name**; all that stands in a directory is one as well, and what
stands in a file does not matter. -/
inductive IsEntry : Node → Prop
  | directory {n : Node} : n.tag = "directory" → (n.attribute? "name").isSome = true →
      (∀ c ∈ n.children, IsEntry c) → IsEntry n
  | file {n : Node} : n.tag = "file" → (n.attribute? "name").isSome = true → IsEntry n

/-- **The shape of a specification.** -/
structure HasShape (root : Node) : Prop where
  projectName : ∃ t, NamedText root "project_name" t
  outputDir : ∃ t, NamedText root "output_dir" t
  entries : ∃ c, FirstChild root "structure" c ∧ ∀ n ∈ c.children, IsEntry n

/-! ### What a tree describes -/

/-- What is in a file: the text of its first content as it is written, if there is any. -/
inductive FileContent (n : Node) : String → Prop
  | text {c : Node} {t : String} : FirstChild n "content" c → c.text? = some t → FileContent n t
  | none : (∀ c, FirstChild n "content" c → c.text? = Option.none) → FileContent n ""

/-- **The entry that a node describes**, with its name as it is written and with the entries of a
directory one by one. -/
inductive DescribesEntry : Node → LayoutEntry → Prop
  | directory {n : Node} {name : String} {es : List LayoutEntry} : n.tag = "directory" →
      n.attribute? "name" = some (.string name) → List.Forall₂ DescribesEntry n.children es →
      DescribesEntry n (.directory name es)
  | file {n : Node} {name content : String} : n.tag = "file" →
      n.attribute? "name" = some (.string name) → FileContent n content →
      DescribesEntry n (.file name content)

/-- **The specification that a tree describes.** The name of the project and the output directory
are trimmed. -/
structure Describes (root : Node) (s : Specification) : Prop where
  projectName : ∃ t, NamedText root "project_name" t ∧ s.projectName = Text.trim t
  outputDir : ∃ t, NamedText root "output_dir" t ∧ s.outputDir.text = Text.trim t
  entries : ∃ c, FirstChild root "structure" c ∧ List.Forall₂ DescribesEntry c.children s.entries

/-! ### What is found among the children -/

theorem find?_children_eq_some : (n.children.find? fun m => m.tag == tag) = some c ↔
    FirstChild n tag c := by
  rw [List.find?_eq_some_iff_append, FirstChild]
  constructor
  · rintro ⟨htag, before, after, hchildren, hbefore⟩
    exact ⟨before, after, hchildren, by simpa using htag, by simpa using hbefore⟩
  · rintro ⟨before, after, hchildren, htag, hbefore⟩
    exact ⟨by simpa using htag, before, after, hchildren, by simpa using hbefore⟩

theorem trimmed?_eq_some {u : String} : Text.trimmed? u = some t ↔
    Text.isBlankText u = false ∧ t = Text.trim u := by
  rw [Text.trimmed?, Bool.eq_false_iff, Ne, ← Text.trim_eq_empty_iff]
  split_ifs with hne
  · simp [hne]
  · simp [hne, eq_comm]

theorem childText_eq_ok_iff :
    childText n tag = .ok t ↔ ∃ u, NamedText n tag u ∧ t = Text.trim u := by
  have hmatch : childText n tag = .ok t ↔
      ((childNamed? n tag).bind Node.text?).bind Text.trimmed? = some t := by
    rw [childText]
    cases ((childNamed? n tag).bind Node.text?).bind Text.trimmed? <;> simp
  rw [hmatch]
  simp only [Option.bind_eq_some_iff, childNamed?, find?_children_eq_some, trimmed?_eq_some]
  constructor
  · rintro ⟨u, ⟨c, hc, hu⟩, hblank, rfl⟩
    exact ⟨u, ⟨c, hc, hu, hblank⟩, rfl⟩
  · rintro ⟨u, ⟨c, hc, hu, hblank⟩, rfl⟩
    exact ⟨u, ⟨c, hc, hu⟩, hblank, rfl⟩

theorem fileContent_iff {content : String} : FileContent n content ↔
    ((n.children.find? fun m => m.tag == "content").bind Node.text?).getD "" = content := by
  constructor
  · intro h
    cases h with
    | text hc ht => rw [find?_children_eq_some.2 hc, Option.bind_some, ht, Option.getD_some]
    | none hno =>
      cases hfind : n.children.find? fun m => m.tag == "content" with
      | none => rfl
      | some c => rw [Option.bind_some, hno c (find?_children_eq_some.1 hfind), Option.getD_none]
  · rintro rfl
    cases hfind : n.children.find? fun m => m.tag == "content" with
    | none =>
      refine .none fun c hc => ?_
      rw [find?_children_eq_some.2 hc] at hfind
      cases hfind
    | some c =>
      have hc := find?_children_eq_some.1 hfind
      rw [Option.bind_some]
      cases ht : c.text? with
      | some t => exact .text hc ht
      | none =>
        refine .none fun d hd => ?_
        rw [find?_children_eq_some.2 hd] at hfind
        rw [Option.some.inj hfind, ht]

/-! ### What is read is what is described -/

theorem string?_eq_some {v : Json} : v.string? = some t ↔ v = .string t := by
  cases v <;> simp [Json.string?]

/-- The entry of a node, by its name and its kind. -/
theorem entryOf_eq (n : Node) : entryOf n =
    match (n.attribute? "name").bind Json.string? with
    | none => .error (.noName n.tag)
    | some name =>
      if n.tag = "directory" then do
        .ok (.directory name (← entriesOf n.children))
      else if n.tag = "file" then
        .ok (.file name (((n.children.find? fun m => m.tag == "content").bind
          Node.text?).getD ""))
      else .error (.unknownEntry n.tag name) := by
  cases n
  rw [entryOf]
  rfl

/-- A node is read as an entry only if it has a name and is of one of the two kinds. -/
theorem entryOf_eq_ok_cases : entryOf n = .ok e ↔
    (∃ name es, n.tag = "directory" ∧ n.attribute? "name" = some (.string name) ∧
      entriesOf n.children = .ok es ∧ e = .directory name es) ∨
    ∃ name content, n.tag = "file" ∧ n.attribute? "name" = some (.string name) ∧
      FileContent n content ∧ e = .file name content := by
  have hname : ∀ name, n.attribute? "name" = some (.string name) ↔
      (n.attribute? "name").bind Json.string? = some name := by
    intro name
    simp [Option.bind_eq_some_iff, string?_eq_some]
  simp only [fileContent_iff, hname]
  rw [entryOf_eq]
  cases (n.attribute? "name").bind Json.string? with
  | none => simp
  | some name =>
    by_cases hdirectory : n.tag = "directory"
    · simp only [hdirectory, if_true, bind_eq_ok_iff]
      simp [eq_comm]
    · by_cases hfile : n.tag = "file"
      · simp [hfile, eq_comm]
      · simp [hdirectory, hfile]

mutual

/-- **An entry is read exactly from the nodes that describe it.** -/
theorem entryOf_eq_ok_iff : (n : Node) → (e : LayoutEntry) →
    (entryOf n = .ok e ↔ DescribesEntry n e)
  | .mk tag attributes children tag_ne free, e => by
    have hchildren := entriesOf_eq_ok_iff children
    rw [entryOf_eq_ok_cases]
    constructor
    · rintro (⟨name, es, htag, hname, hes, rfl⟩ | ⟨name, content, htag, hname, hcontent, rfl⟩)
      · exact .directory htag hname ((hchildren es).1 hes)
      · exact .file htag hname hcontent
    · intro h
      cases h with
      | directory htag hname hes =>
        exact .inl ⟨_, _, htag, hname, (hchildren _).2 hes, rfl⟩
      | file htag hname hcontent => exact .inr ⟨_, _, htag, hname, hcontent, rfl⟩

/-- Entries in a row are read one by one. -/
theorem entriesOf_eq_ok_iff : (ns : List Node) → (es : List LayoutEntry) →
    (entriesOf ns = .ok es ↔ List.Forall₂ DescribesEntry ns es)
  | [], es => by
    rw [entriesOf, List.forall₂_nil_left_iff]
    simp [eq_comm]
  | n :: r, es => by
    rw [entriesOf, List.forall₂_cons_left_iff]
    simp only [bind_eq_ok_iff, entryOf_eq_ok_iff n, entriesOf_eq_ok_iff r]
    constructor
    · rintro ⟨e, he, fs, hfs, heq⟩
      exact ⟨e, fs, he, hfs, (Except.ok.inj heq).symm⟩
    · rintro ⟨e, fs, he, hfs, rfl⟩
      exact ⟨e, he, fs, hfs, rfl⟩

end

/-- **A specification is read exactly from the trees that describe it.** -/
theorem ofNode_eq_ok_iff : ofNode root = .ok s ↔ Describes root s := by
  rw [ofNode]
  simp only [bind_eq_ok_iff, childText_eq_ok_iff]
  constructor
  · rintro ⟨name, hname, dir, hdir, h⟩
    cases hfind : childNamed? root "structure" with
    | none =>
      rw [hfind] at h
      cases h
    | some c =>
      rw [hfind] at h
      obtain ⟨es, hes, heq⟩ := exists_of_bind_eq_ok h
      obtain rfl := Except.ok.inj heq
      exact ⟨hname, hdir, c, find?_children_eq_some.1 hfind,
        (entriesOf_eq_ok_iff c.children es).1 hes⟩
  · rintro ⟨hname, hdir, c, hc, hes⟩
    refine ⟨_, hname, _, hdir, ?_⟩
    have hfind : childNamed? root "structure" = some c := find?_children_eq_some.2 hc
    rw [hfind]
    exact bind_eq_ok_iff.2 ⟨s.entries, (entriesOf_eq_ok_iff c.children s.entries).2 hes, rfl⟩

/-! ### Trees of the right shape -/

/-- A text is all that an attribute of a node of texts can be. -/
theorem exists_name (h : n.TextOnly) (hname : (n.attribute? "name").isSome = true) :
    ∃ name, n.attribute? "name" = some (.string name) := by
  obtain ⟨v, hv⟩ := Option.isSome_iff_exists.1 hname
  rw [Node.TextOnly, Node.eachAttribute_iff] at h
  obtain ⟨name, rfl⟩ := h.1 _ (Attributes.get?_eq_some_iff.1 hv)
  exact ⟨name, hv⟩

theorem exists_fileContent (n : Node) : ∃ content, FileContent n content :=
  ⟨_, fileContent_iff.2 rfl⟩

mutual

/-- **A node of texts describes an entry exactly if it has the shape of one.** -/
theorem exists_describesEntry_iff : (n : Node) → n.TextOnly →
    ((∃ e, DescribesEntry n e) ↔ IsEntry n)
  | .mk tag attributes children tag_ne free, h => by
    have htexts : ∀ m ∈ children, m.TextOnly :=
      Node.eachAttributeOfList_iff.1 (Node.eachAttribute_iff.1 h).2
    have hchildren := exists_forall₂_iff children htexts
    constructor
    · rintro ⟨e, he⟩
      cases he with
      | directory htag hname hes =>
        exact .directory htag (by rw [hname]; rfl) (hchildren.1 ⟨_, hes⟩)
      | file htag hname _ => exact .file htag (by rw [hname]; rfl)
    · intro hentry
      cases hentry with
      | directory htag hname hall =>
        obtain ⟨name, hname⟩ := exists_name h hname
        obtain ⟨es, hes⟩ := hchildren.2 hall
        exact ⟨_, .directory htag hname hes⟩
      | file htag hname =>
        obtain ⟨name, hname⟩ := exists_name h hname
        obtain ⟨content, hcontent⟩ := exists_fileContent _
        exact ⟨_, .file htag hname hcontent⟩

theorem exists_forall₂_iff : (ns : List Node) → (∀ n ∈ ns, n.TextOnly) →
    ((∃ es, List.Forall₂ DescribesEntry ns es) ↔ ∀ n ∈ ns, IsEntry n)
  | [], _ => by simp
  | n :: r, h => by
    rw [List.forall_mem_cons] at h
    rw [List.forall_mem_cons, ← exists_describesEntry_iff n h.1, ← exists_forall₂_iff r h.2]
    constructor
    · rintro ⟨es, hes⟩
      obtain ⟨e, fs, he, hfs, -⟩ := List.forall₂_cons_left_iff.1 hes
      exact ⟨⟨e, he⟩, fs, hfs⟩
    · rintro ⟨⟨e, he⟩, fs, hfs⟩
      exact ⟨e :: fs, .cons he hfs⟩

end

/-- **A tree of texts describes a specification exactly if it has the shape of one.** -/
theorem exists_describes_iff (h : root.TextOnly) : (∃ s, Describes root s) ↔ HasShape root := by
  have htexts : ∀ n : Node, n.TextOnly → ∀ m ∈ n.children, m.TextOnly := fun n hn =>
    Node.eachAttributeOfList_iff.1 (Node.eachAttribute_iff.1 hn).2
  have hentries : ∀ c, FirstChild root "structure" c →
      ((∃ es, List.Forall₂ DescribesEntry c.children es) ↔ ∀ n ∈ c.children, IsEntry n) := by
    intro c hc
    have hmem := List.mem_of_find?_eq_some (find?_children_eq_some.2 hc)
    exact exists_forall₂_iff c.children (htexts c (htexts root h c hmem))
  constructor
  · rintro ⟨s, ⟨t, ht, -⟩, ⟨u, hu, -⟩, c, hc, hes⟩
    exact ⟨⟨t, ht⟩, ⟨u, hu⟩, c, hc, (hentries c hc).1 ⟨_, hes⟩⟩
  · rintro ⟨⟨t, ht⟩, ⟨u, hu⟩, c, hc, hall⟩
    obtain ⟨es, hes⟩ := (hentries c hc).2 hall
    exact ⟨⟨Text.trim t, ⟨Text.trim u⟩, es⟩, ⟨t, ht, rfl⟩, ⟨u, hu, rfl⟩, c, hc, hes⟩

/-- A text that is read as a tree is read as the specification of that tree, or fails as it does. -/
theorem ofMarkup_of_tree {text : String} (h : Node.ofMarkup .raw text = .ok root) :
    ofMarkup text = ofRoot root := by
  rw [ofMarkup, rootOf, Node.ofMarkup_eq_ok_iff.1 h]
  rfl

/-- **A specification in XML is what its tree describes.** It can be read exactly if the tree has
the shape of a specification, and fails as a specification otherwise. -/
theorem ofMarkup_exact {text : String} (h : Node.ofMarkup .raw text = .ok root) :
    (∀ s, ofMarkup text = .ok s ↔ Describes root s) ∧
      ((∃ s, ofMarkup text = .ok s) ↔ HasShape root) ∧
      (¬ HasShape root → ∃ detail, ofMarkup text = .error (.specification detail)) := by
  obtain ⟨item, -, hmirrors⟩ := Node.exists_root_of_ofMarkup h
  have hok : ∀ s, ofMarkup text = .ok s ↔ Describes root s := by
    intro s
    rw [ofMarkup_of_tree h, ofRoot, mapError_eq_ok_iff, ofNode_eq_ok_iff]
  have hshape : (∃ s, ofMarkup text = .ok s) ↔ HasShape root := by
    rw [← exists_describes_iff (Mirrors.textOnly item root hmirrors)]
    exact exists_congr hok
  refine ⟨hok, hshape, fun hno => ?_⟩
  rw [← hshape, ofMarkup_of_tree h, ofRoot] at hno
  rw [ofMarkup_of_tree h, ofRoot]
  cases hnode : ofNode root with
  | ok s => exact absurd ⟨s, by rw [hnode]; rfl⟩ hno
  | error f => exact ⟨f.message, rfl⟩

/-- Blanks around a name of the project, children that are repeated or of no use, and a file without
content. -/
def looseText : String :=
  "<x><project_name> demo </project_name><y/><output_dir>out</output_dir>" ++
  "<project_name>no</project_name><structure z=\"\"><directory name=\"src\">" ++
  "<file name=\" a \"><content> hi </content><content>no</content></file></directory>" ++
  "<file name=\"b\"><structure/></file></structure></x>"

def looseLayout : Specification :=
  ⟨"demo", ⟨"out"⟩, [.directory "src" [.file " a " " hi "], .file "b" ""]⟩

/-- A file without a name, in a directory. -/
def namelessText : String :=
  "<x><project_name>demo</project_name><output_dir>out</output_dir>" ++
  "<structure><directory name=\"src\"><file/></directory></structure></x>"

theorem ofMarkup_exact_loose :
    (∃ root s, Node.ofMarkup .raw looseText = .ok root ∧ HasShape root ∧ Describes root s ∧
      ofMarkup looseText = .ok s ∧ s.same looseLayout = true) ∧
    ∃ root detail, Node.ofMarkup .raw namelessText = .ok root ∧ ¬ HasShape root ∧
      ofMarkup namelessText = .error (.specification detail) := by
  constructor
  · have htree : ((Node.ofMarkup .raw looseText).map Node.tag).toOption = some "x" := by
      decide +kernel
    have hsame : ((ofMarkup looseText).map fun s => s.same looseLayout).toOption = some true := by
      decide +kernel
    obtain ⟨root, hroot, -⟩ := exists_of_map_eq_ok (eq_ok_of_toOption htree)
    obtain ⟨s, hs, hsame⟩ := exists_of_map_eq_ok (eq_ok_of_toOption hsame)
    have hexact := ofMarkup_exact hroot
    exact ⟨root, s, hroot, hexact.2.1.1 ⟨s, hs⟩, (hexact.1 s).1 hs, hs, hsame⟩
  · have htree : ((Node.ofMarkup .raw namelessText).map Node.tag).toOption = some "x" := by
      decide +kernel
    have hfails : (ofMarkup namelessText).isOk = false := by decide +kernel
    obtain ⟨root, hroot, -⟩ := exists_of_map_eq_ok (eq_ok_of_toOption htree)
    have hexact := ofMarkup_exact hroot
    have hno : ¬ HasShape root := by
      rw [← hexact.2.1]
      rintro ⟨s, hs⟩
      rw [hs] at hfails
      cases hfails
    obtain ⟨detail, hdetail⟩ := hexact.2.2 hno
    exact ⟨root, detail, hroot, hno, hdetail⟩

end Scaffold.Specification
