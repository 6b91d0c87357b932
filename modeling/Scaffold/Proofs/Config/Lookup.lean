import Scaffold.Proofs.Config.Load
import Scaffold.Proofs.Config.Parse
import Scaffold.Proofs.Yaml.Silent

/-!
# Settings in the files of a directory

The settings of a directory depend only on the first file that exists of those that are looked for
(`FirstContent`). They are the fields of that file and what is standard for the others: whatever is a mapping
of known fields is read, in JSON or in YAML, a file in which nothing is written leaves everything as it is,
and an unknown field is an error (`load_lookup`).
-/

namespace Scaffold

/-! ### The first file -/

/-- **The content of the first of some files that exists**, if one does. -/
inductive FirstContent (d : Disk) (dir : Path) : List String → Option String → Prop
  | missing : FirstContent d dir [] none
  | found {n text : String} {r : List String} (hexists : d.pathExists (dir.joinName n) = true)
      (hread : d.readText (dir.joinName n) = .ok text) : FirstContent d dir (n :: r) (some text)
  | skipped {n : String} {r : List String} {content : Option String}
      (hexists : d.pathExists (dir.joinName n) = false) (hr : FirstContent d dir r content) :
      FirstContent d dir (n :: r) content

theorem Work.fst_readFirst {dir : Path} {names : List String} {s : Site}
    (hfiles : ∀ n ∈ names, s.disk.pathExists (dir.joinName n) = true →
      ∃ text, s.disk.readText (dir.joinName n) = .ok text) :
    ∃ content, FirstContent s.disk dir names content ∧ (readFirst dir names s).1 = .ok content := by
  have hgo : ∀ rest, rest ⊆ names →
      ∃ content, FirstContent s.disk dir rest content ∧ (readFirst.go dir names rest s).1 = .ok content := by
    intro rest hrest
    induction rest with
    | nil => exact ⟨none, .missing, rfl⟩
    | cons n r ih =>
      obtain ⟨hn, hr⟩ := List.cons_subset.1 hrest
      rw [fst_readFirst_go_cons]
      split_ifs with hexists
      · obtain ⟨text, htext⟩ := hfiles n hn hexists
        exact ⟨some text, .found hexists htext, by rw [htext]; rfl⟩
      · obtain ⟨content, hcontent, hread⟩ := ih hr
        exact ⟨content, .skipped (Bool.eq_false_iff.2 hexists) hcontent, hread⟩
  exact hgo names (List.Subset.refl _)

namespace Config

open Json (Written Piece)
open Work (Reads)
open Yaml (Document Silent)

/-! ### What a text says -/

/-- The text is JSON and says these settings. -/
def SaysInJson (text : String) (c : Config) : Prop :=
  ∃ d, Draft.ofChars text.toList = (d, true) ∧ Says d c

/-- The text is a JSON object with these fields. -/
def IsJsonObject (text : String) (fs : Fields) : Prop :=
  ∃ ms, Draft.ofChars text.toList = (.object ms true, true) ∧ ms.map member? = fs.map some

/-- The text is a YAML mapping with these fields. -/
def IsYamlMapping (text : String) (fs : Fields) : Prop :=
  ∃ mk pairs, (Document.read text).whole = true ∧
    (Document.read text).root = some (.mapping mk pairs true) ∧
    pairs.map (yamlMember? (Document.read text)) = fs.map some

/-- The text is a JSON object with a member that is no field. -/
def IsUnknownInJson (text : String) : Prop :=
  ∃ ms, Draft.ofChars text.toList = (.object ms true, true) ∧ ∃ m ∈ ms, ∀ name ∈ m.1, name ∉ fieldNames

/-- The text is a YAML mapping with a key that is no field. -/
def IsUnknownInYaml (text : String) : Prop :=
  ∃ mk pairs, (Document.read text).whole = true ∧
    (Document.read text).root = some (.mapping mk pairs true) ∧ ∃ pair ∈ pairs, ∃ name,
      ((Document.read text).resolve? pair.1).bind Yaml.Draft.text? = some name ∧ name ∉ fieldNames

variable {text : String} {fs : Fields} {c : Config} {d : Draft}

theorem ofJson?_eq_none : ofJson? text = none ↔ ∀ c, ¬ SaysInJson text c := by
  constructor
  · intro h c hc
    rw [ofJson?_eq_some.2 hc] at h
    cases h
  · intro h
    exact Option.eq_none_iff_forall_ne_some.2 fun c hc => h c (ofJson?_eq_some.1 hc)

theorem parse_of_saysInJson (h : SaysInJson text c) : parse text = .ok c := by
  rw [parse, ofJson?_eq_some.2 h]

theorem parse_eq_ok_of_not_json (h : ∀ c, ¬ SaysInJson text c) :
    parse text = .ok c ↔ ofYaml text = .ok c := by
  rw [parse, ofJson?_eq_none.2 h]
  exact mapError_eq_ok_iff

/-- What is no settings is an error of settings. -/
theorem parse_of_ne_ok (h : ∀ c, parse text ≠ .ok c) :
    ∃ t, parse text = .error (.config ("Invalid configuration format: " ++ t)) := by
  cases hparse : parse text with
  | ok c => exact absurd hparse (h c)
  | error f =>
    obtain ⟨t, rfl⟩ := parse_eq_error hparse
    exact ⟨t, rfl⟩

theorem not_saysInJson_of_not_written (h : ∀ w : Written, ¬ w.IsTextOf text.toList) (c : Config) :
    ¬ SaysInJson text c := by
  rintro ⟨d, hd, -⟩
  obtain ⟨w, hw, -⟩ := Written.exists_isTextOf hd
  exact h w hw

/-! ### Fields that are unknown -/

/-- No name of a field has a gap. -/
theorem not_gapped_of_mem {name : List Char} (h : String.ofList name ∈ fieldNames) :
    ¬ Yaml.Gapped name := by
  have hall : ∀ n ∈ fieldNames, n.toList.all (fun c => !(Yaml.isGap c || Yaml.isBreak c)) = true := by
    decide
  rintro ⟨c, hc, hgap⟩
  have hno := List.all_eq_true.1 (hall _ h) c (by rwa [String.toList_ofList])
  rw [hgap] at hno
  cases hno

theorem exists_of_mem_memberDrafts {members : List (List Piece × Written)} {m : Option String × Draft}
    (hm : m ∈ Written.memberDrafts members) (hsound : Written.SoundMembers members) :
    ∃ ps w, (ps, w) ∈ members ∧ (∀ p ∈ ps, p.Sound) ∧ m.1 = Written.text? ps := by
  induction members with
  | nil => cases hm
  | cons member members ih =>
    obtain ⟨ps, w⟩ := member
    obtain ⟨hps, -, hrest⟩ := hsound
    rcases List.mem_cons.1 hm with rfl | hm
    · exact ⟨ps, w, List.mem_cons_self, hps, rfl⟩
    · obtain ⟨ps', w', hmem, hsound', hm'⟩ := ih hm hrest
      exact ⟨ps', w', List.mem_cons_of_mem _ hmem, hsound', hm'⟩

theorem not_saysInJson_of_isUnknown (h : IsUnknownInJson text) (c : Config) : ¬ SaysInJson text c := by
  obtain ⟨ms, hms, m, hm, hunknown⟩ := h
  rintro ⟨d, hd, fs, hfs, htyped, -⟩
  obtain rfl : d = .object ms true := congrArg Prod.fst (hd.symm.trans hms)
  cases hfs with
  | object hfs =>
    have hmember : member? m ∈ fs.map some := hfs ▸ List.mem_map_of_mem hm
    obtain ⟨f, hf, hmf⟩ := List.mem_map.1 hmember
    obtain ⟨_ | name, v⟩ := m
    · cases hmf
    · obtain ⟨s, -, rfl⟩ := Option.map_eq_some_iff.1 hmf.symm
      exact hunknown name rfl (htyped.fits _ hf).mem_fieldNames

/-- **A JSON member that is no field is none in YAML either**: a key that YAML reads as the name of a field
has no line end that is folded, so it has the same text in JSON. -/
theorem parse_of_isUnknownInJson (h : IsUnknownInJson text) : parse text ≠ .ok c := by
  intro hparse
  have hyaml := (parse_eq_ok_of_not_json (not_saysInJson_of_isUnknown h)).1 hparse
  obtain ⟨ms, hms, m, hm, hunknown⟩ := h
  obtain ⟨w, hw, hdraft⟩ := Written.exists_isTextOf hms
  obtain ⟨hwhole, members, fs, rfl, hfs, htyped, -⟩ := (ofYaml_written hw).1 hyaml
  have hsound := hw.sound
  rw [Written.Sound] at hsound
  rw [Written.draft] at hdraft
  obtain ⟨rfl, -⟩ := Draft.object.inj hdraft
  obtain ⟨ps, v, hmem, hps, hkey⟩ := exists_of_mem_memberDrafts hm hsound
  have halone := Document.alone_of_isTextOf hw hwhole (ps, v) hmem
  -- what the key is in YAML is the name of a field
  have hmember : looseMember? (ps, v) ∈ fs.map some := hfs ▸ List.mem_map_of_mem hmem
  obtain ⟨f, hf, hmf⟩ := List.mem_map.1 hmember
  obtain ⟨s, -, rfl⟩ := Option.map_eq_some_iff.1 hmf.symm
  have hknown : String.ofList (Yaml.folded ps) ∈ fieldNames := (htyped.fits _ hf).mem_fieldNames
  have htext := Yaml.text?_of_folded (fun p hp => ⟨hps p hp, halone p hp⟩) (not_gapped_of_mem hknown)
  refine hunknown _ ?_ hknown
  rw [hkey, Written.text?, htext]
  rfl

theorem ofYaml_of_isUnknownInYaml (h : IsUnknownInYaml text) : ofYaml text ≠ .ok c := by
  intro hyaml
  obtain ⟨mk, pairs, -, hroot, pair, hpair, name, hname, hunknown⟩ := h
  obtain ⟨-, -, fs, hfs, htyped, -⟩ := (ofYaml_mapping hroot).1 hyaml
  have hmember : yamlMember? (Document.read text) pair ∈ fs.map some :=
    hfs ▸ List.mem_map_of_mem hpair
  obtain ⟨f, hf, hmf⟩ := List.mem_map.1 hmember
  rw [yamlMember?, hname, Option.bind_some] at hmf
  obtain ⟨s, -, rfl⟩ := Option.map_eq_some_iff.1 hmf.symm
  exact hunknown (htyped.fits _ hf).mem_fieldNames

/-! ### The text of a file -/

theorem ofFile_of_blank (h : ∀ c ∈ text.toList, Text.isBlank c = true) : ofFile text = .ok standard :=
  if_pos (List.all_eq_true.2 h)

theorem ofFile_eq_parse (h : ¬ ∀ c ∈ text.toList, Text.isBlank c = true) : ofFile text = parse text :=
  if_neg fun hall => h (List.all_eq_true.1 hall)

/-- A JSON text is not all white space. -/
theorem ofFile_of_json (hd : Draft.ofChars text.toList = (d, true)) : ofFile text = parse text := by
  obtain ⟨w, hw, -⟩ := Written.exists_isTextOf hd
  obtain ⟨b, c, r, -, hcs, -, hc⟩ := Document.exists_of_isTextOf hw
  apply ofFile_eq_parse
  intro hblank
  have hc' := hblank c (hcs ▸ by simp)
  rw [hc] at hc'
  cases hc'

/-- Nor is a YAML mapping. -/
theorem ofFile_of_mapping {mk : Yaml.Mark} {pairs : List (Yaml.Draft × Yaml.Draft)} {closed : Bool}
    (hwhole : (Document.read text).whole = true)
    (hroot : (Document.read text).root = some (.mapping mk pairs closed)) : ofFile text = parse text :=
  ofFile_eq_parse fun hblank => Document.root_of_blank hblank hwhole mk pairs closed hroot

/-- **A file in which nothing is written leaves everything as it is.** -/
theorem ofFile_silent (h : Silent text.toList) : ofFile text = .ok standard := by
  by_cases hblank : ∀ c ∈ text.toList, Text.isBlank c = true
  · exact ofFile_of_blank hblank
  have hjson := not_saysInJson_of_not_written fun w => Document.not_isTextOf_of_silent (w := w) h
  rw [ofFile_eq_parse hblank, parse_eq_ok_of_not_json hjson]
  have hread := Document.read_silent h
  exact ofYaml_of_root_none (by rw [hread]) (by rw [hread])

/-- **A mapping of known fields is read**, in JSON or else in YAML. -/
theorem ofFile_fields (hfs : fs.WellTyped)
    (h : IsJsonObject text fs ∨ (∀ c, ¬ SaysInJson text c) ∧ IsYamlMapping text fs) :
    ofFile text = .ok (ofFields fs) := by
  rcases h with ⟨ms, hms, hmembers⟩ | ⟨hjson, mk, pairs, hwhole, hroot, hpairs⟩
  · rw [ofFile_of_json hms]
    exact parse_of_saysInJson ⟨_, hms, fs, .object hmembers, hfs, rfl⟩
  · rw [ofFile_of_mapping hwhole hroot, parse_eq_ok_of_not_json hjson, ofYaml_mapping hroot]
    exact ⟨hwhole, rfl, fs, hpairs, hfs, rfl⟩

/-- **An unknown field is an error of settings.** -/
theorem ofFile_unknown
    (h : IsUnknownInJson text ∨ (∀ c, ¬ SaysInJson text c) ∧ IsUnknownInYaml text) :
    ∃ t, ofFile text = .error (.config ("Invalid configuration format: " ++ t)) := by
  rcases h with hunknown | ⟨hjson, hunknown⟩
  · obtain ⟨ms, hms, -⟩ := id hunknown
    rw [ofFile_of_json hms]
    exact parse_of_ne_ok fun c => parse_of_isUnknownInJson hunknown
  · obtain ⟨mk, pairs, hwhole, hroot, -⟩ := id hunknown
    rw [ofFile_of_mapping hwhole hroot]
    refine parse_of_ne_ok fun c hparse => ?_
    exact ofYaml_of_isUnknownInYaml hunknown ((parse_eq_ok_of_not_json hjson).1 hparse)

/-! ### The settings of a directory -/

/-- **The settings of a directory are those of the first file that exists.** Without a file, or where the file
is white space or nothing is written in it, they are the standard ones. The fields of a mapping are set, and
an unknown field is an error. -/
theorem load_lookup {dir : Path} {s : Site}
    (hfiles : ∀ n ∈ fileNames, s.disk.pathExists (dir.joinName n) = true →
      ∃ text, s.disk.readText (dir.joinName n) = .ok text) :
    ∃ content, FirstContent s.disk dir fileNames content ∧ (load dir s).1 = ofFile? content ∧
      (content = none → (load dir s).1 = .ok standard) ∧
      ∀ text ∈ content,
        ((∀ c ∈ text.toList, Text.isBlank c = true) ∨ Silent text.toList →
          (load dir s).1 = .ok standard) ∧
        (∀ fs : Fields, fs.WellTyped →
          IsJsonObject text fs ∨ (∀ c, ¬ SaysInJson text c) ∧ IsYamlMapping text fs →
          (load dir s).1 = .ok (ofFields fs)) ∧
        (IsUnknownInJson text ∨ (∀ c, ¬ SaysInJson text c) ∧ IsUnknownInYaml text →
          ∃ t, (load dir s).1 = .error (.config ("Invalid configuration format: " ++ t))) := by
  obtain ⟨content, hcontent, hfirst⟩ := Work.fst_readFirst hfiles
  have hload : (load dir s).1 = ofFile? content := by
    have hread := Work.reads_readFirst dir fileNames
    rw [load_eq, hread.fst_bind fun _ => Reads.ofExcept _, hfirst]
    exact Work.fst_ofExcept _ _
  refine ⟨content, hcontent, hload, ?_, ?_⟩
  · rintro rfl
    exact hload
  · rintro text rfl
    have hfile : (load dir s).1 = ofFile text := hload
    rw [hfile]
    refine ⟨?_, fun fs hfs => ofFile_fields hfs, ofFile_unknown⟩
    rintro (hblank | hsilent)
    · exact ofFile_of_blank hblank
    · exact ofFile_silent hsilent

/-- A directory with these files, in which relative paths start. -/
def diskWith (files : List (String × String)) : Disk :=
  ⟨.directory (files.map fun f => (f.1, .file (.text f.2))), []⟩

/-- Two files, the first of which holds a remark only. -/
def remarked : Disk := diskWith [("trellis.yaml", "output: other\n"), ("trellis.yml", "# none yet\n")]

/-- The settings of the second file do not count. -/
theorem load_lookup_remarked : FirstContent remarked ⟨"."⟩ fileNames (some "# none yet\n") ∧
    (load ⟨"."⟩ (.on remarked)).1 = .ok standard := by
  have hread : ∀ n ∈ fileNames, remarked.pathExists (Path.joinName ⟨"."⟩ n) = true →
      (remarked.readText (Path.joinName ⟨"."⟩ n)).isOk = true := by decide +kernel
  obtain ⟨content, hcontent, -, -, hsettings⟩ := @load_lookup ⟨"."⟩ (.on remarked)
    fun n hn hexists => exists_of_isOk (hread n hn hexists)
  have hfirst : remarked.pathExists (Path.joinName ⟨"."⟩ "trellis.json") = false ∧
      remarked.pathExists (Path.joinName ⟨"."⟩ "trellis.yml") = true := by decide +kernel
  have htext : remarked.readText (Path.joinName ⟨"."⟩ "trellis.yml") = .ok "# none yet\n" :=
    eq_ok_of_toOption (by decide +kernel)
  obtain rfl : content = some "# none yet\n" := by
    rw [fileNames] at hcontent
    cases hcontent with
    | found hexists => exact nomatch hfirst.1.symm.trans hexists
    | skipped _ hr =>
      cases hr with
      | found _ hread => rw [Except.ok.inj (hread.symm.trans htext)]
      | skipped hexists => exact nomatch hfirst.2.symm.trans hexists
  have hsilent : Silent "# none yet\n".toList := ⟨by decide +kernel, List.all_eq_true.1 (by decide +kernel)⟩
  exact ⟨hcontent, (hsettings _ rfl).1 (.inr hsilent)⟩

/-- A tab in front of a remark. -/
def tabbed : Disk := diskWith [("trellis.yaml", "\t# none yet\n")]

/-- Other white space than spaces and line ends is not passed over in front of a remark. -/
theorem load_not_standard : ¬ ∀ (dir : Path) (s : Site) (b m : List Char),
    (∀ c ∈ b, Text.isBlank c = true) →
    (∀ c ∈ m, Yaml.isPrintable c = true ∧ Yaml.isBreak c = false) →
    FirstContent s.disk dir fileNames (some (String.ofList (b ++ '#' :: (m ++ ['\n'])))) →
    (load dir s).1 = .ok standard := by
  intro h
  have hexists : tabbed.pathExists (Path.joinName ⟨"."⟩ "trellis.json") = false ∧
      tabbed.pathExists (Path.joinName ⟨"."⟩ "trellis.yml") = false ∧
      tabbed.pathExists (Path.joinName ⟨"."⟩ "trellis.yaml") = true := by decide +kernel
  have htext : tabbed.readText (Path.joinName ⟨"."⟩ "trellis.yaml") = .ok "\t# none yet\n" :=
    eq_ok_of_toOption (by decide +kernel)
  have hfirst : FirstContent tabbed ⟨"."⟩ fileNames (some "\t# none yet\n") :=
    .skipped hexists.1 (.skipped hexists.2.1 (.found hexists.2.2 htext))
  have hload := h ⟨"."⟩ (.on tabbed) ['\t'] " none yet".toList
    (List.forall_mem_singleton.2 rfl) (List.all_iff_forall_prop.1 (by decide)) hfirst
  have herror : (load ⟨"."⟩ (.on tabbed)).1.isOk = false := by decide +kernel
  rw [hload] at herror
  cases herror

end Config

end Scaffold
