import Scaffold.Proofs.Markup.Written
import Scaffold.Proofs.Pipeline.Parts
import Scaffold.Proofs.Results

/-!
# Texts of which the kind is told by their first character

A text that can be read as XML begins, apart from blanks, with `<` (`looksLikeMarkup_of_read`),
unless a byte order mark stands first or the blanks are written as references: such a text is
`Veiled`, and is taken for YAML. A text that begins with `<` is never read as YAML. These are all
the texts of which `parse` can miss a specification (`parse_sniffs`), and both kinds occur
(`parse_misses`).
-/

namespace Scaffold

namespace Markup

variable {mode : TextMode} {text : String} {n : Node}

/-- Where the references of a text stand for blanks only, its first character that is not blank, if
there is one, begins a reference. -/
theorem head_of_resolveFrom (cs : List Char) : ∀ {fuel position limit : Nat} {s : List Char},
    cs.length < fuel → resolveFrom fuel position limit cs = .ok s → s.all Text.isBlank = true →
    (cs.dropWhile Text.isBlank).head? = none ∨ (cs.dropWhile Text.isBlank).head? = some '&' := by
  induction cs with
  | nil => exact fun _ _ _ => .inl rfl
  | cons c r ih =>
    intro fuel position limit s hfuel h hs
    obtain ⟨fuel, rfl⟩ : ∃ k, fuel = k + 1 := ⟨fuel - 1, by omega⟩
    by_cases hc : c = '&'
    · subst hc
      exact .inr rfl
    · -- a character that begins no reference stands for itself
      rw [resolveFrom] at h
      simp only [if_neg hc] at h
      obtain ⟨x, hx, hcons⟩ := exists_of_bind_eq_ok h
      obtain rfl := Except.ok.inj hcons
      rw [List.all_cons, Bool.and_eq_true] at hs
      rw [List.dropWhile_cons_of_pos hs.1]
      exact ih (by simpa using hfuel) hx hs.2

theorem head_of_resolve {cs s : List Char} (h : resolve cs = .ok s)
    (hs : s.all Text.isBlank = true) :
    (cs.dropWhile Text.isBlank).head? = none ∨ (cs.dropWhile Text.isBlank).head? = some '&' :=
  head_of_resolveFrom cs (Nat.lt_succ_self _) h hs

/-- A text that does not begin with markup is read up to its first markup, if there is any. -/
theorem eventsFrom_of_ne {c : Char} (hc : c ≠ '<') (r : List Char) (fuel position : Nat)
    (names : List String) : ∃ es fault,
      ((c :: r).dropWhile (· != '<') = [] → es = [] ∧ fault = none) ∧
      eventsFrom (fuel + 1) ⟨position, names, c :: r⟩ =
        match resolve ((c :: r).takeWhile (· != '<')) with
        | .error f => ([], some (.text f))
        | .ok s => (.text (String.ofList s) :: es, fault) := by
  let next : Cursor := ⟨position + Text.byteLength ((c :: r).takeWhile (· != '<')), names,
    (c :: r).dropWhile (· != '<')⟩
  refine ⟨(eventsFrom fuel next).1, (eventsFrom fuel next).2, fun hend => ?_, ?_⟩
  · have hlast : eventsFrom fuel next = ([], none) := by
      cases fuel with
      | zero => rfl
      | succ k => rw [eventsFrom, show next.rest = [] from hend]
    rw [hlast]
    exact ⟨rfl, rfl⟩
  · rw [eventsFrom]
    split
    · simp_all
    · simp_all
    · rfl

/-- The text before all markup stands for blanks, and there is markup behind it. -/
theorem exists_blank_of_read {c : Char} {r : List Char} (hc : c ≠ '<') (hmark : c ≠ byteOrderMark)
    (htext : text.toList = c :: r) (h : read mode text = .ok n) :
    (∃ s, resolve ((c :: r).takeWhile (· != '<')) = .ok s ∧ s.all Text.isBlank = true) ∧
      (c :: r).dropWhile (· != '<') ≠ [] := by
  obtain ⟨es, fault, hlast, hevents⟩ := eventsFrom_of_ne hc r (c :: r).length 0 []
  have hread : events text.toList = eventsFrom ((c :: r).length + 1) ⟨0, [], c :: r⟩ := by
    rw [htext, events]
    simp only [if_neg hmark]
  rw [read, hread, hevents] at h
  cases hs : resolve ((c :: r).takeWhile (· != '<')) with
  | error f =>
    rw [hs] at h
    cases h
  | ok s =>
    rw [hs] at h
    obtain ⟨p, hp, hfinish⟩ := exists_of_bind_eq_ok h
    obtain ⟨q, hq, hrun⟩ := exists_of_bind_eq_ok hp
    -- outside of all elements the machine takes blank text only, and stays as it is
    have hadd : (if Text.isBlankText (String.ofList s) then .ok Progress.start
        else .error Fault.textOutside) = Except.ok q := hq
    split_ifs at hadd with hblank
    refine ⟨⟨s, rfl, by simpa [Text.isBlankText] using hblank⟩, fun hend => ?_⟩
    -- a text that ends here has no root
    obtain ⟨rfl, rfl⟩ := hlast hend
    cases hadd
    cases hrun
    cases hfinish

end Markup

namespace Specification

open Markup

variable {text : String} {s : Specification}

/-- **A text that hides that it is XML**: a byte order mark stands first, or what comes first apart
from blanks is a reference. -/
def Veiled (text : String) : Prop :=
  text.toList.head? = some byteOrderMark ∨ (Text.trimStart text).toList.head? = some '&'

instance (text : String) : Decidable (Veiled text) := inferInstanceAs (Decidable (_ ∨ _))

theorem looksLikeMarkup_eq (cs : List Char) :
    looksLikeMarkup (String.ofList cs) = ((cs.dropWhile Text.isBlank).head? == some '<') := by
  rw [looksLikeMarkup, Text.trimStart, String.toList_ofList, String.toList_ofList]

theorem veiled_iff (cs : List Char) : Veiled (String.ofList cs) ↔
    cs.head? = some byteOrderMark ∨ (cs.dropWhile Text.isBlank).head? = some '&' := by
  rw [Veiled, Text.trimStart, String.toList_ofList, String.toList_ofList]

theorem looksLikeMarkup_of_veiled (h : Veiled text) : looksLikeMarkup text = false := by
  rw [← String.ofList_toList (s := text), looksLikeMarkup_eq]
  rw [← String.ofList_toList (s := text), veiled_iff] at h
  rcases h with h | h
  · -- a byte order mark is not blank
    obtain ⟨r, hr⟩ := List.head?_eq_some_iff.1 h
    rw [hr]
    rfl
  · rw [h]
    rfl

/-- **A text that can be read as XML looks like it or hides it.** -/
theorem looksLikeMarkup_of_read {mode : TextMode} {n : Node} (h : Markup.read mode text = .ok n)
    (hveil : ¬ Veiled text) : looksLikeMarkup text = true := by
  rw [← String.ofList_toList (s := text), veiled_iff, not_or] at hveil
  rw [← String.ofList_toList (s := text), looksLikeMarkup_eq, beq_iff_eq]
  cases htext : text.toList with
  | nil =>
    -- an empty text has no root
    rw [Markup.read, htext] at h
    cases h
  | cons c r =>
    rw [htext] at hveil
    by_cases hc : c = '<'
    · rw [hc]
      rfl
    · have hmark : c ≠ byteOrderMark := by
        rintro rfl
        exact hveil.1 rfl
      obtain ⟨⟨s, hs, hblank⟩, hrest⟩ := exists_blank_of_read hc hmark htext h
      -- the text is blank up to its first angle bracket
      obtain ⟨d, markup, hmarkup⟩ := List.exists_cons_of_ne_nil hrest
      have hd : d = '<' := by
        have hhead := List.head_dropWhile_not (· != '<') hrest
        simpa [hmarkup] using hhead
      have hsplit := List.takeWhile_append_dropWhile (p := (· != '<')) (l := c :: r)
      rw [hmarkup, hd] at hsplit
      rw [← hsplit, List.dropWhile_append] at hveil ⊢
      rcases head_of_resolve hs hblank with hnone | hamp
      · rw [List.head?_eq_none_iff.1 hnone]
        rfl
      · obtain ⟨lead, hlead⟩ := List.head?_eq_some_iff.1 hamp
        rw [hlead] at hveil
        exact absurd rfl hveil.2

theorem exists_read_of_ofMarkup (h : ofMarkup text = .ok s) :
    ∃ n, Markup.read .raw text = .ok n := by
  obtain ⟨n, hn, -⟩ := exists_of_bind_eq_ok h
  rw [rootOf] at hn
  cases hread : Markup.read .raw text with
  | error f => rw [hread] at hn; cases hn
  | ok m => exact ⟨m, rfl⟩

theorem parse_of_looksLikeMarkup (h : looksLikeMarkup text = true) :
    parse text = ofMarkup text := by rw [parse, if_pos h]

theorem parse_of_not_looksLikeMarkup (h : looksLikeMarkup text = false) :
    parse text = ofYaml text := by rw [parse, h, if_neg (by simp)]

/-- **Telling texts by their first character loses hardly any specification.** What XML text holds
is missed only where the text is veiled and is taken for YAML; what YAML text holds that is not XML
is missed only where the text begins with `<` and is taken for XML. So a file which is named as XML
holds the same under other names, and the other way round, up to these texts. -/
theorem parse_sniffs (text : String) (s : Specification) :
    (ofMarkup text = .ok s → parse text = .ok s ∨ Veiled text ∧ parse text = ofYaml text) ∧
    (∀ f, ofMarkup text = .error f → ofYaml text = .ok s →
      parse text = .ok s ∨ looksLikeMarkup text = true ∧ parse text = .error f) ∧
    ∀ (p q : Path) (t : Site), p.hasExtension "xml" = true → q.hasExtension "xml" = false →
      t.disk.readText p = .ok text → t.disk.readText q = .ok text →
        ((load p t).1 = .ok s →
          (load q t).1 = .ok s ∨ Veiled text ∧ (load q t).1 = ofYaml text) ∧
        ((load q t).1 = .ok s →
          (load p t).1 = .ok s ∨ looksLikeMarkup text = false ∧ ofYaml text = .ok s) := by
  have hmarkup : ofMarkup text = .ok s →
      parse text = .ok s ∨ Veiled text ∧ parse text = ofYaml text := by
    intro h
    by_cases hveil : Veiled text
    · exact .inr ⟨hveil, parse_of_not_looksLikeMarkup (looksLikeMarkup_of_veiled hveil)⟩
    · obtain ⟨n, hn⟩ := exists_read_of_ofMarkup h
      exact .inl ((parse_of_looksLikeMarkup (looksLikeMarkup_of_read hn hveil)).trans h)
  refine ⟨hmarkup, fun f hf hyaml => ?_, fun p q t hp hq htext hother => ?_⟩
  · cases hlook : looksLikeMarkup text with
    | true => exact .inr ⟨rfl, (parse_of_looksLikeMarkup hlook).trans hf⟩
    | false => exact .inl ((parse_of_not_looksLikeMarkup hlook).trans hyaml)
  · rw [load_of_readText htext, load_of_readText hother, if_pos hp, hq, if_neg (by simp)]
    refine ⟨hmarkup, fun h => ?_⟩
    cases hlook : looksLikeMarkup text with
    | true => exact .inl ((parse_of_looksLikeMarkup hlook).symm.trans h)
    | false => exact .inr ⟨rfl, (parse_of_not_looksLikeMarkup hlook).symm.trans h⟩

/-- A specification of nothing but its base path, as XML and as YAML. -/
def bare : Specification := ⟨"p", ⟨"o"⟩, []⟩

def bareMarkup : String :=
  "<i><project_name>p</project_name><output_dir>o</output_dir><structure/></i>"

def bareYaml : String := "project_name: p\noutput_dir: o\nstructure: []\n"

/-- Whether a specification is read that says as much as `bare`. -/
def saysBare (x : Except Failure Specification) : Bool :=
  match x with
  | .ok ⟨projectName, ⟨outputDir⟩, []⟩ => projectName == "p" && outputDir == "o"
  | _ => false

theorem eq_of_saysBare {x : Except Failure Specification} (h : saysBare x = true) :
    x = .ok bare := by
  unfold saysBare at h
  split at h
  · rw [Bool.and_eq_true, beq_iff_eq, beq_iff_eq] at h
    rw [h.1, h.2]
    rfl
  · cases h

/-- The same text under two names. -/
def twice (text : String) : Site :=
  .on ⟨.directory [("spec.xml", .file (.text text)), ("spec.txt", .file (.text text))], []⟩

theorem parse_sniffs_bare :
    parse ("\n" ++ bareMarkup) = .ok bare ∧ parse bareYaml = .ok bare ∧
      (load ⟨"spec.txt"⟩ (twice bareMarkup)).1 = .ok bare ∧
      (load ⟨"spec.xml"⟩ (twice bareMarkup)).1 = .ok bare := by
  have hopen : ¬ Veiled ("\n" ++ bareMarkup) ∧ ¬ Veiled bareMarkup := by decide +kernel
  have hlook : looksLikeMarkup bareYaml = false ∧ looksLikeMarkup bareMarkup = true := by
    decide +kernel
  have hmarkup : ofMarkup ("\n" ++ bareMarkup) = .ok bare := eq_of_saysBare (by decide +kernel)
  have hyaml : ofYaml bareYaml = .ok bare := eq_of_saysBare (by decide +kernel)
  obtain ⟨f, hf⟩ := exists_of_isOk_eq_false
    (show (ofMarkup bareYaml).isOk = false by decide +kernel)
  have hload : (load ⟨"spec.xml"⟩ (twice bareMarkup)).1 = .ok bare :=
    eq_of_saysBare (by decide +kernel)
  have hnames : Path.hasExtension ⟨"spec.xml"⟩ "xml" = true ∧
      Path.hasExtension ⟨"spec.txt"⟩ "xml" = false := by decide +kernel
  obtain ⟨hother, hback⟩ := (parse_sniffs bareMarkup bare).2.2 ⟨"spec.xml"⟩ ⟨"spec.txt"⟩
    (twice bareMarkup) hnames.1 hnames.2 (by decide +kernel) (by decide +kernel)
  have hsame := (hother hload).resolve_right fun h => hopen.2 h.1
  exact ⟨((parse_sniffs _ _).1 hmarkup).resolve_right fun h => hopen.1 h.1,
    ((parse_sniffs _ _).2.1 f hf hyaml).resolve_right fun h => by simp [hlook.1] at h,
    hsame, (hback hsame).resolve_right fun h => by simp [hlook.2] at h⟩

/-- A byte order mark or a blank written as a reference makes XML be taken for YAML, and a key that
begins with `<` makes YAML be taken for XML. -/
theorem parse_misses :
    (ofMarkup ("\ufeff" ++ bareMarkup) = .ok bare ∧ (parse ("\ufeff" ++ bareMarkup)).isOk = false) ∧
    (ofMarkup ("&#32;" ++ bareMarkup) = .ok bare ∧ (parse ("&#32;" ++ bareMarkup)).isOk = false) ∧
    ((ofMarkup ("<a>: 1\n" ++ bareYaml)).isOk = false ∧ ofYaml ("<a>: 1\n" ++ bareYaml) = .ok bare ∧
      (parse ("<a>: 1\n" ++ bareYaml)).isOk = false) := by
  refine ⟨⟨eq_of_saysBare ?_, ?_⟩, ⟨eq_of_saysBare ?_, ?_⟩, ?_, eq_of_saysBare ?_, ?_⟩ <;>
    decide +kernel

end Specification

end Scaffold
