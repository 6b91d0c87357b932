import Scaffold.Proofs.Disk.Below
import Scaffold.Proofs.Path.Components
import Scaffold.Proofs.Store.Interchange

/-!
# A store looks at nothing but its two directories

Whatever text a store is asked for, the path that it looks at lies strictly below one of its two
directories, since every piece of the text has to be a plain name (`resolve?_eq_some`). So two disks
that are the same at these directories give the same answers (`answers_of_samePools`), and a text
that is found is that of the file of this name in the first directory or in the second.

Below one directory a name leads to the components of the directory followed by its pieces
(`components_resolve?`). The pieces of a name tell the name, so no two names lead to the same path
(`resolve_faithful`).
-/

namespace Scaffold

open Disk (SameAt)

variable {root p x : Path} {q : String} {ns : List String} {d e : Disk} {s t : Site}

namespace Path

/-- A text whose pieces are plain names is no absolute path: its first piece would be empty. -/
theorem isAbsolute_of_segments (h : ∀ n ∈ segments q, PlainName n) :
    (Path.mk q).isAbsolute = false := by
  rw [isAbsolute, beq_eq_false_iff_ne]
  intro hhead
  obtain ⟨r, hr⟩ : ∃ r, q.toList = '/' :: r := by
    cases hq : q.toList with
    | nil => rw [hq] at hhead; cases hhead
    | cons c r => rw [hq] at hhead; exact ⟨r, by rw [Option.some.inj hhead]⟩
  have hempty : "" ∈ segments q := by
    rw [segments, hr, Text.splitAll, if_pos rfl]
    exact List.mem_cons_self
  exact (h "" hempty).ne_empty rfl

/-- **Joining a text is joining its pieces**, if they are plain names. -/
theorem join_eq_joinNames (h : ∀ n ∈ segments q, PlainName n) :
    p.join ⟨q⟩ = p.joinNames (segments q) := by
  have hne : segments q ≠ [] := mt List.map_eq_nil_iff.1 (Text.splitAll_ne_nil _ _)
  have hpieces : (segments q).map String.toList = Text.splitAll '/' q.toList := by
    simp [segments, Function.comp_def]
  refine congrArg Path.mk (String.toList_injective ?_)
  have hjoined := toList_joinNames (p := p) h hne
  rw [hpieces, Text.intercalate_splitAll] at hjoined
  exact (toList_join (isAbsolute_of_segments h)).trans hjoined.symm

end Path

/-- **The same in both directories of a store**, and below them, on two disks. -/
structure DirectoryStore.SamePools (st : DirectoryStore) (d e : Disk) : Prop where
  templates : SameAt st.templates d e
  macros : SameAt st.macros d e

namespace DirectoryStore

/-- **The paths that names lead to** lie strictly below the directory. -/
theorem resolve?_eq_some : resolve? p q = some x ↔
    (∀ n ∈ segments q, PlainName n) ∧ x = p.joinNames (segments q) := by
  by_cases hq : ∀ n ∈ segments q, PlainName n
  · rw [resolve?_of_plain p hq, Option.some.injEq, eq_comm, and_iff_right hq]
  · simp [resolve?_of_not_plain p hq, hq]

/-- Disks that are the same at a directory are the same where a name leads to. -/
theorem sameAt_of_resolve? (h : SameAt p d e) (hp : p.text ≠ "") (hx : resolve? p q = some x) :
    SameAt x d e := by
  obtain ⟨hq, rfl⟩ := resolve?_eq_some.1 hx
  exact h.joinNames hp hq

theorem text_below_ne_empty (root : Path) :
    (below root).templates.text ≠ "" ∧ (below root).macros.text ≠ "" :=
  ⟨Path.text_joinName_ne_empty plainName_templates, Path.text_joinName_ne_empty plainName_macros⟩

/-! ### The same answers -/

theorem listing_congr (h : s.disk.list p = t.disk.list p) : (listing p s).1 = (listing p t).1 := by
  have hlisting : ∀ u : Site, (listing p u).1 = (u.disk.list p).mapError .io := fun u => by
    have hdisk : Work.disk u = (.ok u.disk, u) := rfl
    rw [listing, Work.bind_of_ok hdisk]
    cases u.disk.list p <;> rfl
  rw [hlisting, hlisting, h]

theorem pathExists_of_isDirectory (h : d.isDirectory p = true) : d.pathExists p = true := by
  obtain ⟨l, hl, -⟩ := Disk.isDirectory_iff.1 h
  exact Disk.pathExists_iff.2 ⟨l, hl⟩

theorem pathExists_of_isFile (h : d.isFile p = true) : d.pathExists p = true := by
  obtain ⟨l, c, hl, -⟩ := Disk.isFile_iff.1 h
  exact Disk.pathExists_iff.2 ⟨l, hl⟩

theorem tags_congr {st : DirectoryStore} (h : SameAt st.templates s.disk t.disk) :
    (st.tags s).1 = (st.tags t).1 := by
  have hdisk : ∀ u : Site, Work.disk u = (.ok u.disk, u) := fun _ => rfl
  rw [DirectoryStore.tags, Work.bind_of_ok (hdisk s), Work.bind_of_ok (hdisk t), h.isDirectory_eq]
  by_cases hd : t.disk.isDirectory st.templates = true
  · rw [if_pos hd, (reads_listing _).fst_bind (fun _ => .pure _),
      (reads_listing _).fst_bind (fun _ => .pure _)]
    have hs : s.disk.isDirectory st.templates = true := h.isDirectory_eq.trans hd
    rw [listing_congr (h.results_eq (pathExists_of_isDirectory hs)).1]
    rfl
  · rw [if_neg hd]
    rfl

theorem modes_congr {st : DirectoryStore} (h : SameAt st.templates s.disk t.disk)
    (hp : st.templates.text ≠ "") (tag : String) : (st.modes tag s).1 = (st.modes tag t).1 := by
  rw [DirectoryStore.modes, Work.bind_of_ok (group?_apply st tag s),
    Work.bind_of_ok (group?_apply st tag t)]
  cases hx : resolve? st.templates tag with
  | none => rfl
  | some x =>
    have hsame := sameAt_of_resolve? h hp hx
    rw [Option.filter, Option.filter, hsame.isDirectory_eq]
    by_cases hd : (isPlainSegment tag && t.disk.isDirectory x) = true
    · have hs : s.disk.isDirectory x = true :=
        hsame.isDirectory_eq.trans (Bool.and_eq_true_iff.1 hd).2
      simp only [if_pos hd]
      rw [(reads_listing _).fst_bind (fun _ => .pure _),
        (reads_listing _).fst_bind (fun _ => .pure _),
        listing_congr (hsame.results_eq (pathExists_of_isDirectory hs)).1]
      rfl
    · simp only [if_neg hd]
      rfl

/-- The first of some files that is there is read. -/
theorem firstFile_of_isFile (h : s.disk.isFile p = true) (ps : List (Option Path)) :
    (firstFile (some p :: ps) s).1 = ((s.disk.readText p).mapError .io).map some := by
  have hdisk : Work.disk s = (.ok s.disk, s) := rfl
  obtain ⟨u, hnote, hu⟩ : ∃ u, Work.debug ("Loading template " ++ p.text) s = (.ok (), u) ∧
    u.disk = s.disk := ⟨_, rfl, rfl⟩
  have hread : (Work.readText p u).1 = (s.disk.readText p).mapError .io := by
    have hdisku : Work.disk u = (.ok u.disk, u) := rfl
    rw [Work.readText, Work.bind_of_ok hdisku, hu]
    cases s.disk.readText p <;> rfl
  rw [firstFile, Work.bind_of_ok hdisk, if_pos h, Work.bind_of_ok hnote,
    (Work.Reads.readText p).fst_bind (fun _ => .pure _), hread]
  rfl

theorem firstFile_congr (ps : List (Option Path)) (h : ∀ p, some p ∈ ps → SameAt p s.disk t.disk) :
    (firstFile ps s).1 = (firstFile ps t).1 := by
  induction ps with
  | nil => rfl
  | cons p? ps ih =>
    have hrest := ih fun p hp => h p (List.mem_cons_of_mem _ hp)
    cases p? with
    | none => exact hrest
    | some p =>
      have hsame := h p List.mem_cons_self
      by_cases hf : s.disk.isFile p = true
      · have hft : t.disk.isFile p = true := hsame.isFile_eq.symm.trans hf
        rw [firstFile_of_isFile hf, firstFile_of_isFile hft,
          (hsame.results_eq (pathExists_of_isFile hf)).2]
      · have hft : ¬ t.disk.isFile p = true := hsame.isFile_eq ▸ hf
        rw [firstFile_of_missing hf, firstFile_of_missing hft, hrest]

theorem source_congr {st : DirectoryStore} (h : st.SamePools s.disk t.disk)
    (hp : st.templates.text ≠ "" ∧ st.macros.text ≠ "") (name : String) :
    (st.source name s).1 = (st.source name t).1 := by
  refine firstFile_congr _ fun x hx => ?_
  rcases List.mem_pair.1 hx with hx | hx
  · exact sameAt_of_resolve? h.templates hp.1 hx.symm
  · exact sameAt_of_resolve? h.macros hp.2 hx.symm

/-! ### The texts that are found -/

/-- **A text that is found** is read from the file of this name in the first directory or, where this
is no file, in the second; and the name has led strictly below the directory. -/
theorem source_eq_some {st : DirectoryStore} {name text : String}
    (h : (st.source name s).1 = .ok (some text)) : (∀ n ∈ segments name, PlainName n) ∧
      (s.disk.readText (st.templates.join ⟨name⟩) = .ok text ∨
        s.disk.isFile (st.templates.join ⟨name⟩) = false ∧
          s.disk.readText (st.macros.join ⟨name⟩) = .ok text) := by
  have hread : ∀ p ps, s.disk.isFile p = true → (firstFile (some p :: ps) s).1 = .ok (some text) →
      s.disk.readText p = .ok text := fun p ps hf hfirst => by
    rw [firstFile_of_isFile hf] at hfirst
    cases hr : s.disk.readText p with
    | error f => rw [hr] at hfirst; cases hfirst
    | ok u => rw [hr] at hfirst; cases hfirst; rfl
  by_cases hq : ∀ n ∈ segments name, PlainName n
  · refine ⟨hq, ?_⟩
    rw [DirectoryStore.source, resolve?_of_plain _ hq, resolve?_of_plain _ hq] at h
    rw [Path.join_eq_joinNames hq, Path.join_eq_joinNames hq]
    by_cases hf : s.disk.isFile (st.templates.joinNames (segments name)) = true
    · exact .inl (hread _ _ hf h)
    · rw [firstFile_of_missing hf] at h
      by_cases hm : s.disk.isFile (st.macros.joinNames (segments name)) = true
      · exact .inr ⟨Bool.eq_false_iff.2 hf, hread _ _ hm h⟩
      · rw [firstFile_of_missing hm] at h
        cases h
  · rw [DirectoryStore.source, resolve?_of_not_plain _ hq, resolve?_of_not_plain _ hq] at h
    cases h

end DirectoryStore

/-- **A store never looks outside its two directories.** On disks that are the same at and below
these, however different they are elsewhere, it gives the same answers to every question, whatever
text is asked for. A text that it finds is that of the file of this name below the first directory or,
where this is no file, below the second. -/
theorem answers_of_samePools {d e : Disk} {root : Path}
    (h : (DirectoryStore.below root).SamePools d e) {s t : Site} (hs : s.disk = d) (ht : t.disk = e) :
    ((DirectoryStore.below root).tags s).1 = ((DirectoryStore.below root).tags t).1 ∧
      (∀ tag, ((DirectoryStore.below root).modes tag s).1 =
        ((DirectoryStore.below root).modes tag t).1) ∧
      (∀ name, ((DirectoryStore.below root).source name s).1 =
        ((DirectoryStore.below root).source name t).1) ∧
      ∀ name text, ((DirectoryStore.below root).source name s).1 = .ok (some text) →
        (∀ n ∈ segments name, PlainName n) ∧
          (d.readText ((root.joinName "templates").join ⟨name⟩) = .ok text ∨
            d.isFile ((root.joinName "templates").join ⟨name⟩) = false ∧
              d.readText ((root.joinName "macros").join ⟨name⟩) = .ok text) := by
  subst hs ht
  have hp := DirectoryStore.text_below_ne_empty root
  exact ⟨DirectoryStore.tags_congr h.templates, DirectoryStore.modes_congr h.templates hp.1,
    DirectoryStore.source_congr h hp, fun name text => DirectoryStore.source_eq_some⟩

/-- Another disk with the same two directories of a store, and a file between them. -/
def Disk.moved : Disk :=
  let file (text : String) : DiskEntry := .directory [("m.jinja", .file (.text text))]
  ⟨.directory [("elsewhere", .directory [("store", .directory
    [("macros", .directory [("a", file "hidden")]), ("m.jinja", .file (.text "secret")),
      ("templates", .directory [("a", file "text"), ("b", .directory [])])])])], ["elsewhere"]⟩

/-- The file between the directories is not found, and neither disk makes a difference. -/
theorem answers_of_samePools_moved : Disk.mixed ≠ Disk.moved ∧
    (DirectoryStore.below ⟨"store"⟩).SamePools Disk.mixed Disk.moved ∧
    ((DirectoryStore.below ⟨"store"⟩).source "a/m.jinja" (.on Disk.moved)).1 = .ok (some "text") ∧
    ((DirectoryStore.below ⟨"store"⟩).source "../m.jinja" (.on Disk.moved)).1 = .ok none := by
  have hsame : (DirectoryStore.below ⟨"store"⟩).SamePools Disk.mixed Disk.moved := ⟨rfl, rfl⟩
  obtain ⟨-, -, hsource, -⟩ := answers_of_samePools hsame (s := .on Disk.mixed)
    (t := .on Disk.moved) rfl rfl
  refine ⟨fun h => ?_, hsame, (hsource _).symm.trans rfl, (hsource _).symm.trans rfl⟩
  exact absurd (congrArg Disk.home h) (by decide)

/-! ### Where names lead -/

namespace DirectoryStore

variable {base y : Path} {name : String}

theorem segments_ne_nil (name : String) : segments name ≠ [] :=
  mt List.map_eq_nil_iff.1 (Text.splitAll_ne_nil _ _)

theorem isSome_resolve? : (resolve? base name).isSome ↔ ∀ n ∈ segments name, PlainName n := by
  rw [Option.isSome_iff_exists]
  simp only [resolve?_eq_some]
  exact ⟨fun ⟨_, h, _⟩ => h, fun h => ⟨_, h, rfl⟩⟩

/-- **The components of the path that a name leads to** are those of the directory and then the
pieces of the name. -/
theorem components_resolve? (h : resolve? base name = some x) :
    x.components = base.components ++ (segments name).map .name := by
  obtain ⟨hplain, rfl⟩ := resolve?_eq_some.1 h
  exact Path.components_joinNames hplain

/-- Names that lead to the same path are equal. -/
theorem eq_of_same_resolve? {m n : String} (hx : resolve? base m = some x)
    (hy : resolve? base n = some y) (h : x.same y = true) : m = n := by
  rw [Path.same, beq_iff_eq, components_resolve? hx, components_resolve? hy,
    List.append_cancel_left_eq] at h
  exact segments_injective ((List.map_inj_right fun _ _ => PathComponent.name.inj).1 h)

/-- **Where names lead.** From a directory a name leads to a path just if all its pieces between
slashes are plain names. Then the path has the components of the directory and after them at least
one more, which are these pieces in order. Different names lead to different paths, if they lead
anywhere. -/
theorem resolve_faithful (base : Path) :
    (∀ name, (resolve? base name).isSome ↔ ∀ n ∈ segments name, PlainName n) ∧
      (∀ name x, resolve? base name = some x → segments name ≠ [] ∧
        x.components = base.components ++ (segments name).map .name) ∧
      ∀ m n x y, m ≠ n → resolve? base m = some x → resolve? base n = some y → x.same y = false := by
  refine ⟨fun _ => isSome_resolve?, fun name x hx => ⟨segments_ne_nil name, components_resolve? hx⟩,
    fun m n x y hne hx hy => ?_⟩
  rw [Bool.eq_false_iff]
  exact fun h => hne (eq_of_same_resolve? hx hy h)

/-- The directory ends in a dot and in slashes, which are no components of it. -/
theorem resolve_faithful_sample :
    (resolve? ⟨"./pool/.//"⟩ "list/html.jinja").isSome ∧
      (Path.mk "./pool/.//list/html.jinja").components =
        [.here, .name "pool", .name "list", .name "html.jinja"] ∧
      (Path.mk "./pool/.//list/html.jinja").same ⟨"./pool/.//list"⟩ = false := by
  have hboth : resolve? ⟨"./pool/.//"⟩ "list/html.jinja" = some ⟨"./pool/.//list/html.jinja"⟩ := by
    decide
  obtain ⟨hplain, hpath, hdifferent⟩ := resolve_faithful ⟨"./pool/.//"⟩
  refine ⟨(hplain _).2 (by decide), ?_, ?_⟩
  · exact (hpath _ _ hboth).2.trans (by decide)
  · exact hdifferent "list/html.jinja" "list" _ _ (by decide) hboth (by decide)

end DirectoryStore

end Scaffold
