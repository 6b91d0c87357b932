import Scaffold.Proofs.Markup.Spelling
import Scaffold.Proofs.Text.Trim
import Scaffold.Specification.Markup

/-!
# Specifications written in XML

`Written` relates a specification to the XML texts that it is written as: blank text may stand
around all elements and around the two names, and the content of a file stands in its element as it
is. Each of these texts is read as just this specification (`ofMarkup_written`).
-/

namespace Scaffold.Specification

open Markup Item

/-! ### Written specifications -/

mutual

/-- The written forms of an entry. A file has its content, escaped and otherwise as it is, in an
element of its own. -/
inductive WrittenEntry : LayoutEntry → List Char → Prop
  | file {name content lead trail : String} :
      Text.isBlankText lead = true → Text.isBlankText trail = true →
      WrittenEntry (.file name content) (elementText "file" [("name", name)]
        (lead.toList ++ (elementText "content" [] (escape content.toList) ++ trail.toList)))
  | directory {name : String} {es : List LayoutEntry} {cs : List Char} : WrittenEntries es cs →
      WrittenEntry (.directory name es) (elementText "directory" [("name", name)] cs)

/-- The written forms of entries in a row, with blank text before, between and behind them. -/
inductive WrittenEntries : List LayoutEntry → List Char → Prop
  | nil {blank : String} : Text.isBlankText blank = true → WrittenEntries [] blank.toList
  | cons {blank : String} {e : LayoutEntry} {es : List LayoutEntry} {cs ds : List Char} :
      Text.isBlankText blank = true → WrittenEntry e cs → WrittenEntries es ds →
      WrittenEntries (e :: es) (blank.toList ++ (cs ++ ds))

end

/-- A text with blanks around it. -/
def Padded (s : String) (cs : List Char) : Prop :=
  ∃ lead trail : String, Text.isBlankText lead = true ∧ Text.isBlankText trail = true ∧
    cs = lead.toList ++ (escape s.toList ++ trail.toList)

/-- **The written forms of a specification.** -/
inductive Written : Specification → List Char → Prop
  | intro {projectName outputDir : String} {entries : List LayoutEntry} {ps os es : List Char}
      {lead b₁ b₂ b₃ b₄ trail : String} :
      Padded projectName ps → Padded outputDir os → WrittenEntries entries es →
      (∀ b ∈ [lead, b₁, b₂, b₃, b₄, trail], Text.isBlankText b = true) →
      Written ⟨projectName, ⟨outputDir⟩, entries⟩
        (lead.toList ++ (elementText "infrastructure" []
          (b₁.toList ++ (elementText "project_name" [] ps ++
            (b₂.toList ++ (elementText "output_dir" [] os ++
              (b₃.toList ++ (elementText "structure" [] es ++ b₄.toList)))))) ++ trail.toList))

/-! ### Elements of a specification -/

theorem escape_of_blank {s : String} (h : Text.isBlankText s = true) :
    escape s.toList = s.toList := by
  refine escape_eq_self fun c hc => ?_
  have hblank : Text.isBlank c = true := List.all_eq_true.1 h c hc
  have hall : ∀ x ∈ ['&', '<', '>', '"'], Text.isBlank x = false :=
    List.all_iff_forall_prop.1 (by decide)
  intro hmem
  rw [hall c hmem] at hblank
  cases hblank

theorem spellsList_blank {s : String} (h : Text.isBlankText s = true) :
    SpellsList .raw s.toList (ofText s) [] := by
  have htext := SpellsList.ofText .raw s
  rwa [escape_of_blank h] at htext

theorem spellsList_cons {cs ds : List Char} {i : Item} {n : Node} {c : List Item} {ns : List Node}
    {s : String} (h : Text.isBlankText s = true) (hi : Spells .raw cs i n)
    (hc : SpellsList .raw ds c ns) :
    SpellsList .raw (s.toList ++ (cs ++ ds)) (ofText s ++ i :: c) (n :: ns) := by
  have hcons := hc.cons hi s
  rwa [escape_of_blank h] at hcons

/-- The tags of specifications, which are names and are not reserved. -/
def tags : List String :=
  ["infrastructure", "project_name", "output_dir", "structure", "directory", "file", "content"]

theorem isName_of_mem_tags {tag : String} (h : tag ∈ tags) : IsName tag := by
  have hall : ∀ t ∈ tags, t ≠ "" ∧ t.toList.all isNameChar = true := by decide
  exact ⟨(hall tag h).1, List.all_eq_true.1 (hall tag h).2⟩

/-- An element without attributes. -/
theorem exists_spells (tag : String) (h : tag ∈ tags) {cs : List Char} {c : List Item}
    {ns : List Node} (hc : SpellsList .raw cs c ns) : ∃ n,
    Spells .raw (elementText tag [] cs) (.element tag [] c) n ∧ n.tag = tag ∧
      n.text? = textOf? .raw c ∧ n.children = ns := by
  have hname := isName_of_mem_tags h
  obtain ⟨n, hn, hchildren⟩ := hc.element (a := []) hname (by simp) (by simp)
    ⟨hname.ne_empty, by simp, by simp⟩
  exact ⟨n, hn, tag_of_mirrors hn.mirrors, text?_of_mirrors hn.mirrors (by simp), hchildren⟩

/-- An element with a name. -/
theorem exists_spells_named (tag : String) (h : tag ∈ tags) (name : String) {cs : List Char}
    {c : List Item} {ns : List Node} (hc : SpellsList .raw cs c ns) : ∃ i n,
    Spells .raw (elementText tag [("name", name)] cs) i n ∧ n.tag = tag ∧
      n.attributes.get? "name" = some (.string name) ∧ n.children = ns := by
  have hname := isName_of_mem_tags h
  have hkey : IsName "name" := ⟨by decide, List.all_eq_true.1 (by decide)⟩
  obtain ⟨n, hn, hchildren⟩ := hc.element (a := [("name", name)]) hname (by simpa using hkey)
    (by simp) ⟨hname.ne_empty, by simp [reservedNames], by simp [textName]⟩
  exact ⟨_, n, hn, tag_of_mirrors hn.mirrors, get?_of_mirrors hn.mirrors (by simp), hchildren⟩

/-! ### Entries -/

theorem entryOf_directory {n : Node} {name : String} {es : List LayoutEntry}
    (htag : n.tag = "directory") (hname : n.attributes.get? "name" = some (.string name))
    (hes : entriesOf n.children = .ok es) : entryOf n = .ok (.directory name es) := by
  obtain ⟨tag, attributes, children, _, _⟩ := n
  obtain rfl : tag = "directory" := htag
  have hname : attributes.get? "name" = some (.string name) := hname
  have hes : entriesOf children = .ok es := hes
  simp only [entryOf, hname, Option.bind_some, Json.string?, if_true, hes]
  rfl

theorem entryOf_file {n m : Node} {name : String} (htag : n.tag = "file")
    (hname : n.attributes.get? "name" = some (.string name)) (hm : n.children = [m])
    (hcontent : m.tag = "content") : entryOf n = .ok (.file name (m.text?.getD "")) := by
  obtain ⟨tag, attributes, children, _, _⟩ := n
  obtain rfl : tag = "file" := htag
  obtain rfl : children = [m] := hm
  have hname : attributes.get? "name" = some (.string name) := hname
  simp [entryOf, hname, Json.string?, hcontent]

mutual

/-- **A written entry spells a node, and the node is read as the entry.** -/
theorem WrittenEntry.spells {e : LayoutEntry} {cs : List Char} : WrittenEntry e cs →
    ∃ i n, Spells .raw cs i n ∧ entryOf n = .ok e
  | @WrittenEntry.file name content _ _ hlead htrail => by
    obtain ⟨m, hm, hmtag, hmtext, -⟩ := exists_spells "content" (by decide)
      (SpellsList.ofText .raw content)
    obtain ⟨i, n, hn, htag, hname, hchildren⟩ := exists_spells_named "file" (by decide)
      name (spellsList_cons hlead hm (spellsList_blank htrail))
    refine ⟨i, n, hn, ?_⟩
    rw [entryOf_file htag hname hchildren hmtag, hmtext, textOf?_ofText]
    -- an empty content is as good as none
    split_ifs with hempty
    · rw [hempty]
      rfl
    · rfl
  | @WrittenEntry.directory name _ _ hes => by
    obtain ⟨c, ns, hc, hns⟩ := WrittenEntries.spells hes
    obtain ⟨i, n, hn, htag, hname, hchildren⟩ := exists_spells_named "directory"
      (by decide) name hc
    exact ⟨i, n, hn, entryOf_directory htag hname (by rw [hchildren]; exact hns)⟩

theorem WrittenEntries.spells {es : List LayoutEntry} {cs : List Char} : WrittenEntries es cs →
    ∃ c ns, SpellsList .raw cs c ns ∧ entriesOf ns = .ok es
  | .nil hblank => ⟨_, [], spellsList_blank hblank, rfl⟩
  | .cons hblank he hes => by
    obtain ⟨i, n, hn, hentry⟩ := WrittenEntry.spells he
    obtain ⟨c, ns, hc, hns⟩ := WrittenEntries.spells hes
    refine ⟨_, n :: ns, spellsList_cons hblank hn hc, ?_⟩
    rw [entriesOf, hentry, hns]
    rfl

end

theorem Padded.spells {s : String} {cs : List Char} (h : Padded s cs) (hne : s ≠ "")
    (hs : Text.trim s = s) : ∃ c, SpellsList .raw cs c [] ∧
      (textOf? .raw c).bind Text.trimmed? = some s := by
  obtain ⟨lead, trail, hlead, htrail, rfl⟩ := h
  refine ⟨ofText (lead ++ (s ++ trail)), ?_, ?_⟩
  · have htext := SpellsList.ofText .raw (lead ++ (s ++ trail))
    rwa [String.toList_append, String.toList_append, escape_append, escape_append,
      escape_of_blank hlead, escape_of_blank htrail] at htext
  · have htrim := (Text.trim_padded s hlead htrail).trans hs
    have hfull : lead ++ (s ++ trail) ≠ "" := by
      intro hempty
      rw [hempty] at htrim
      exact hne htrim.symm
    rw [textOf?_ofText, if_neg hfull, Option.bind_some, Text.trimmed?, htrim]
    simp [hne]

theorem childText_of_find {n m : Node} (tag : String) {t : String}
    (h : n.children.find? (·.tag == tag) = some m) (ht : m.text?.bind Text.trimmed? = some t) :
    childText n tag = .ok t := by
  rw [childText, childNamed?, h, Option.bind_some, ht]

theorem ofMarkup_of_written {s : Specification} {text : String}
    (hname : s.projectName ≠ "" ∧ Text.trim s.projectName = s.projectName)
    (hdir : s.outputDir.text ≠ "" ∧ Text.trim s.outputDir.text = s.outputDir.text)
    (h : Written s text.toList) : ofMarkup text = .ok s := by
  obtain ⟨cs, rfl⟩ : ∃ cs, text = String.ofList cs := ⟨text.toList, String.ofList_toList.symm⟩
  rw [String.toList_ofList] at h
  cases h with
  | @intro projectName outputDir entries ps os es lead b₁ b₂ b₃ b₄ trail hps hos hes hblank =>
    obtain ⟨pc, hpc, hp⟩ := hps.spells hname.1 hname.2
    obtain ⟨oc, hoc, ho⟩ := hos.spells hdir.1 hdir.2
    obtain ⟨ec, ns, hec, hns⟩ := hes.spells
    obtain ⟨p, hpn, hptag, hptext, -⟩ := exists_spells "project_name" (by decide) hpc
    obtain ⟨o, hon, hotag, hotext, -⟩ := exists_spells "output_dir" (by decide) hoc
    obtain ⟨e, hen, hetag, -, hechildren⟩ := exists_spells "structure" (by decide) hec
    obtain ⟨n, hn, -, -, hchildren⟩ := exists_spells "infrastructure" (by decide)
      (spellsList_cons (hblank b₁ (by simp)) hpn (spellsList_cons (hblank b₂ (by simp)) hon
        (spellsList_cons (hblank b₃ (by simp)) hen (spellsList_blank (hblank b₄ (by simp))))))
    have hread := hn.read (hblank lead (by simp)) (hblank trail (by simp))
    rw [escape_of_blank (hblank lead (by simp)), escape_of_blank (hblank trail (by simp))] at hread
    have hpname := childText_of_find (n := n) (m := p) "project_name"
      (by simp [hchildren, hptag]) (hptext ▸ hp)
    have honame := childText_of_find (n := n) (m := o) "output_dir"
      (by simp [hchildren, hptag, hotag]) (hotext ▸ ho)
    have hstructure : childNamed? n "structure" = some e := by
      simp [childNamed?, hchildren, hptag, hotag, hetag]
    have hentries : entriesOf e.children = .ok entries := by rw [hechildren]; exact hns
    have hnode : ofNode n = .ok ⟨projectName, ⟨outputDir⟩, entries⟩ := by
      rw [ofNode, hpname, honame]
      simp only [hstructure, hentries]
      rfl
    rw [ofMarkup, rootOf, hread]
    exact congrArg (Except.mapError _) hnode

/-! ### Every specification can be written -/

mutual

theorem exists_writtenEntry : (e : LayoutEntry) → ∃ cs, WrittenEntry e cs
  | .file name content => ⟨_, @WrittenEntry.file name content "" "" rfl rfl⟩
  | .directory _ es => (exists_writtenEntries es).imp' _ fun _ h => .directory h

theorem exists_writtenEntries : (es : List LayoutEntry) → ∃ cs, WrittenEntries es cs
  | [] => ⟨_, @WrittenEntries.nil "" rfl⟩
  | e :: es => by
    obtain ⟨cs, he⟩ := exists_writtenEntry e
    obtain ⟨ds, hes⟩ := exists_writtenEntries es
    exact ⟨_, @WrittenEntries.cons "" _ _ _ _ rfl he hes⟩

end

theorem padded_self (s : String) : Padded s (escape s.toList) := ⟨"", "", rfl, rfl, by simp⟩

theorem exists_written (s : Specification) : ∃ text : String, Written s text.toList := by
  obtain ⟨projectName, ⟨outputDir⟩, entries⟩ := s
  obtain ⟨es, hes⟩ := exists_writtenEntries entries
  have h := @Written.intro _ _ _ _ _ _ "" "" "" "" "" ""
    (padded_self projectName) (padded_self outputDir) hes (by decide)
  exact ⟨String.ofList _, by rw [String.toList_ofList]; exact h⟩

/-- **A specification with trimmed names can be written, and is read back as it is** from whatever
it is written as. -/
theorem ofMarkup_written {s : Specification}
    (hname : s.projectName ≠ "" ∧ Text.trim s.projectName = s.projectName)
    (hdir : s.outputDir.text ≠ "" ∧ Text.trim s.outputDir.text = s.outputDir.text) :
    (∃ text : String, Written s text.toList) ∧
      ∀ text : String, Written s text.toList → ofMarkup text = .ok s :=
  ⟨exists_written s, fun _ h => ofMarkup_of_written hname hdir h⟩

/-- Names and contents of markup, an empty directory, and a file of nothing but blanks. -/
def sample : Specification :=
  ⟨"demo", ⟨"out & about"⟩, [.directory "a\"<b>" [.file "&amp;" " \n", .file "empty" ""],
    .directory "d" []]⟩

def sampleText : String :=
  "\n<infrastructure>\n <project_name> demo\n</project_name>\n <output_dir>out &amp; about" ++
  "</output_dir><structure> <directory name=\"a&quot;&lt;b&gt;\">\n  " ++
  "<file name=\"&amp;amp;\"><content> \n</content>\t</file>" ++
  "<file name=\"empty\"> <content></content></file></directory>" ++
  "<directory name=\"d\">\n</directory>\n</structure></infrastructure>\n"

theorem ofMarkup_written_sample : (sample.projectName ≠ "" ∧
    Text.trim sample.projectName = sample.projectName) ∧ (sample.outputDir.text ≠ "" ∧
    Text.trim sample.outputDir.text = sample.outputDir.text) ∧ Written sample sampleText.toList ∧
    ofMarkup sampleText = .ok sample := by
  have hname : sample.projectName ≠ "" ∧ Text.trim sample.projectName = sample.projectName := by
    decide +kernel
  have hdir : sample.outputDir.text ≠ "" ∧
      Text.trim sample.outputDir.text = sample.outputDir.text := by decide +kernel
  have hfiles : WrittenEntries [.file "&amp;" " \n", .file "empty" ""] _ :=
    @WrittenEntries.cons "\n  " _ _ _ _ rfl (@WrittenEntry.file _ _ "" "\t" rfl rfl)
      (@WrittenEntries.cons "" _ _ _ _ rfl (@WrittenEntry.file _ _ " " "" rfl rfl)
        (@WrittenEntries.nil "" rfl))
  have hentries : WrittenEntries sample.entries _ :=
    @WrittenEntries.cons " " _ _ _ _ rfl (.directory hfiles)
      (@WrittenEntries.cons "" _ _ _ _ rfl (.directory (@WrittenEntries.nil "\n" rfl))
        (@WrittenEntries.nil "\n" rfl))
  have hwritten : Written sample _ :=
    @Written.intro _ _ _ _ _ _ "\n" "\n " "\n " "" "" "\n"
      ⟨" ", "\n", rfl, rfl, rfl⟩ ⟨"", "", rfl, rfl, rfl⟩ hentries (by decide)
  have htext : Written sample sampleText.toList := by
    -- the two are compared as texts, not as characters
    refine Eq.subst ?_ hwritten
    refine String.toList_ofList.symm.trans (congrArg String.toList ?_)
    decide +kernel
  exact ⟨hname, hdir, htext, (ofMarkup_written hname hdir).2 _ htext⟩

end Scaffold.Specification
