import Scaffold.Proofs.Disk.Below
import Scaffold.Proofs.Pipeline.Parts

/-!
# How the loading of a specification fails

A text is read as a specification, or it fails as one (`failsAsSpecification_parse`), whatever is
wrong with it and whichever reader it is given to. Whether there is a text at all depends on the
disk: where there is no file, the specification is not found, and where there is one, its bytes have
to be a text (`load_kinds`). Bytes that are no text fail as input, and not as a specification.
-/

namespace Scaffold

variable {α β ε : Type}

/-- A failure, if there is one, is that of a specification. -/
def FailsAsSpecification (r : Except Failure α) : Prop :=
  ∀ f, r = .error f → ∃ detail, f = .specification detail

namespace FailsAsSpecification

theorem bind {r : Except Failure α} {g : α → Except Failure β} (hr : FailsAsSpecification r)
    (hg : ∀ a, FailsAsSpecification (g a)) : FailsAsSpecification (r >>= g) := by
  cases r with
  | ok a => exact hg a
  | error f =>
    rintro _ ⟨⟩
    exact hr f rfl

/-- Faults that are told as those of a specification. -/
theorem mapError {g : ε → Failure} (r : Except ε α)
    (h : ∀ e, ∃ detail, g e = .specification detail) : FailsAsSpecification (r.mapError g) := by
  cases r with
  | ok a => exact fun _ hf => nomatch hf
  | error e =>
    rintro _ ⟨⟩
    exact h e

theorem ok_or_error {r : Except Failure α} (h : FailsAsSpecification r) :
    (∃ a, r = .ok a) ∨ ∃ detail, r = .error (.specification detail) := by
  cases r with
  | ok a => exact .inl ⟨a, rfl⟩
  | error f =>
    obtain ⟨detail, rfl⟩ := h f rfl
    exact .inr ⟨detail, rfl⟩

end FailsAsSpecification

namespace Specification

variable {p : Path} {s : Site} {text : String}

theorem failsAsSpecification_ofMarkup (text : String) : FailsAsSpecification (ofMarkup text) :=
  .bind (.mapError _ fun _ => ⟨_, rfl⟩) fun _ => .mapError _ fun _ => ⟨_, rfl⟩

theorem failsAsSpecification_ofYaml (text : String) : FailsAsSpecification (ofYaml text) :=
  .mapError _ fun _ => ⟨_, rfl⟩

/-- **Every text is a specification or fails as one**, whatever it is written in. -/
theorem failsAsSpecification_parse (text : String) : FailsAsSpecification (parse text) := by
  rw [parse]
  split
  · exact failsAsSpecification_ofMarkup text
  · exact failsAsSpecification_ofYaml text

/-- Where there is no file, there is no specification. -/
theorem load_of_missing (h : s.disk.isFile p = false) :
    (load p s).1 = .error (.specificationNotFound p) := by
  have hdisk : Work.disk s = (.ok s.disk, s) := rfl
  rw [load, Work.bind_of_ok hdisk, h]
  rfl

/-- **What is loaded from a file** is what its text holds; bytes that are no text are an error of
input. -/
theorem load_of_file {c : Content} (h : s.disk.entry? p = some (.file c)) :
    (load p s).1 =
      match c with
      | .text text => if p.hasExtension "xml" then ofMarkup text else parse text
      | .binary _ => .error (.io .invalidText) := by
  have hread := Disk.readText_of_file h
  cases c with
  | link linked _ => cases linked
  | text text => exact load_of_readText hread
  | binary bytes =>
    have hfile : s.disk.isFile p = true := Disk.isFile_eq_true_iff.2 ⟨_, h⟩
    have hdisk : Work.disk s = (.ok s.disk, s) := rfl
    obtain ⟨t, hnote, ht⟩ : ∃ t, Work.debug ("Loading specification from " ++ p.text) s =
      (.ok (), t) ∧ t.disk = s.disk := ⟨_, rfl, rfl⟩
    have hfails : Work.readText p t = (.error (.io .invalidText), t) := by
      have hdisk : Work.disk t = (.ok t.disk, t) := rfl
      rw [Work.readText, Work.bind_of_ok hdisk, ht, hread]
      rfl
    rw [load, Work.bind_of_ok hdisk, hfile, if_neg (by simp), Work.bind_of_ok hnote,
      Work.bind_of_error hfails]

/-- A file of a text fails only as a specification. -/
theorem failsAsSpecification_load (h : s.disk.entry? p = some (.file (.text text))) :
    FailsAsSpecification (load p s).1 := by
  have hload := load_of_file h
  simp only at hload
  rw [hload]
  split
  · exact failsAsSpecification_ofMarkup text
  · exact failsAsSpecification_parse text

/-- **The kinds of failures of loading.** The specification is not found exactly where there is no
file. A file whose bytes are a text is read as a specification or fails as one, and one whose bytes
are none fails as input. -/
theorem load_kinds (p : Path) (s : Site) :
    (∀ q, (load p s).1 = .error (.specificationNotFound q) ↔
      q = p ∧ s.disk.isFile p = false) ∧
    ∀ bytes, s.disk.entry? p = some (.file (.ofBytes bytes)) →
      (∀ text, String.fromUTF8? ⟨bytes.toArray⟩ = some text →
        (∃ spec, (load p s).1 = .ok spec) ∨
          ∃ detail, (load p s).1 = .error (.specification detail)) ∧
      (String.fromUTF8? ⟨bytes.toArray⟩ = none → (load p s).1 = .error (.io .invalidText)) := by
  constructor
  · intro q
    constructor
    · intro h
      cases hfile : s.disk.isFile p with
      | false =>
        rw [load_of_missing hfile] at h
        cases h
        exact ⟨rfl, rfl⟩
      | true =>
        -- a file fails as a specification or as input
        obtain ⟨c, hc⟩ := Disk.isFile_eq_true_iff.1 hfile
        cases c with
        | link linked _ => cases linked
        | text text =>
          obtain ⟨detail, hdetail⟩ := failsAsSpecification_load hc _ h
          cases hdetail
        | binary bytes =>
          rw [load_of_file hc] at h
          cases h
    · rintro ⟨rfl, hfile⟩
      exact load_of_missing hfile
  · intro bytes hentry
    refine ⟨fun text htext => ?_, fun hnone => ?_⟩
    · have hcontent : (Content.ofBytes bytes : Content) = .text text := by rw [Content.ofBytes, htext]
      rw [hcontent] at hentry
      exact (failsAsSpecification_load hentry).ok_or_error
    · have hcontent : (Content.ofBytes bytes : Content) = .binary bytes := by rw [Content.ofBytes, hnone]
      rw [hcontent] at hentry
      exact load_of_file hentry

/-- A file that is no text, and one of a text that is no specification. -/
def unfitSite : Site :=
  .on ⟨.directory [("work", .directory [("a.yaml", .file (.ofBytes [255])),
    ("b.xml", .file (.ofBytes [60, 97, 47, 62]))])], ["work"]⟩

theorem load_kinds_unfit :
    (load ⟨"a.yaml"⟩ unfitSite).1 = .error (.io .invalidText) ∧
    (∃ detail, (load ⟨"b.xml"⟩ unfitSite).1 = .error (.specification detail)) ∧
    (load ⟨"c"⟩ unfitSite).1 = .error (.specificationNotFound ⟨"c"⟩) := by
  have ha : unfitSite.disk.entry? ⟨"a.yaml"⟩ = some (.file (.ofBytes [255])) := by rfl
  have hb : unfitSite.disk.entry? ⟨"b.xml"⟩ = some (.file (.ofBytes [60, 97, 47, 62])) := by rfl
  have hbytes : String.fromUTF8? ⟨#[255]⟩ = none := by decide +kernel
  have htext : String.fromUTF8? ⟨#[60, 97, 47, 62]⟩ = some "<a/>" := by decide +kernel
  have hfails : (load ⟨"b.xml"⟩ unfitSite).1.isOk = false := by decide +kernel
  have hmissing : unfitSite.disk.isFile ⟨"c"⟩ = false := by decide +kernel
  refine ⟨((load_kinds _ unfitSite).2 _ ha).2 hbytes, ?_,
    ((load_kinds _ unfitSite).1 _).2 ⟨rfl, hmissing⟩⟩
  rcases ((load_kinds _ unfitSite).2 _ hb).1 _ htext with ⟨spec, hspec⟩ | hdetail
  · rw [hspec] at hfails
    cases hfails
  · exact hdetail

/-- Bytes that are no text are neither a specification nor fail as one. -/
theorem load_not_utf8 : unfitSite.disk.isFile ⟨"a.yaml"⟩ = true ∧
    ¬ ((∃ spec, (load ⟨"a.yaml"⟩ unfitSite).1 = .ok spec) ∨
      ∃ detail, (load ⟨"a.yaml"⟩ unfitSite).1 = .error (.specification detail)) := by
  have hbytes : String.fromUTF8? ⟨#[255]⟩ = none := by decide +kernel
  have hentry : unfitSite.disk.entry? ⟨"a.yaml"⟩ = some (.file (.binary [255])) := by
    have hcontent : (Content.ofBytes [255] : Content) = .binary [255] := by rw [Content.ofBytes, hbytes]
    rw [← hcontent]
    rfl
  have hload := load_of_file hentry
  refine ⟨Disk.isFile_eq_true_iff.2 ⟨_, hentry⟩, ?_⟩
  simp only at hload
  rw [hload]
  rintro (⟨spec, hspec⟩ | ⟨detail, hdetail⟩)
  · cases hspec
  · cases hdetail

end Specification

end Scaffold
