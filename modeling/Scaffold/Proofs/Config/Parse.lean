import Scaffold.Proofs.Config.Yaml
import Scaffold.Proofs.Results
import Scaffold.Proofs.Yaml.Spelled

/-!
# Settings written in JSON

A JSON text that says something of settings is read as JSON. Any other JSON text is read again as YAML, where
the types of scalars count less: a number, `true`, `false` or `null` is as good a text as a string
(`looseSetting?`). So a JSON text has the settings that it says as JSON, or else those that it says loosely,
and otherwise none (`parse_written`).
-/

namespace Scaffold.Config

open Json (Written Piece IsWord)
open Yaml (Document folded)

/-! ### JSON values where types count less -/

/-- What a JSON value says of a field where any scalar is a text, as it is written. -/
def looseSetting? (name : String) : Written → Option Setting
  | .word x =>
    if name = "validate" then
      if x = "true".toList then some (.flag true)
      else if x = "false".toList then some (.flag false)
      else none
    else if name = "schema" ∧ x = "null".toList then some .none
    else some (.text (String.ofList x))
  | .quoted ps => if name = "validate" then none else some (.text (String.ofList (folded ps)))
  | _ => none

def looseMember? (m : List Piece × Written) : Option (String × Setting) :=
  (looseSetting? (String.ofList (folded m.1)) m.2).map (String.ofList (folded m.1), ·)

/-- **What a JSON value says of settings where types count less**: known fields, each once. -/
def SaysLoosely (w : Written) (c : Config) : Prop :=
  ∃ (ms : List (List Piece × Written)) (fs : Fields), w = .object ms ∧
    ms.map looseMember? = fs.map some ∧ fs.WellTyped ∧ c = ofFields fs

/-! ### Words -/

/-- A word that is no number is one of three. -/
theorem word_cases {x : List Char} (h : IsWord x) :
    x ∈ ["null".toList, "true".toList, "false".toList] ∨
      ∃ c ∈ x.head?, c.isDigit = true ∨ c = '-' := by
  rcases h with h | ⟨n, h⟩ | ⟨y, n, rfl, -⟩
  · exact .inl h
  · obtain ⟨x', rfl, -, -, c, hc, hdigit⟩ := Json.exists_numeral h
    refine .inr ⟨c, ?_, .inl hdigit⟩
    rwa [List.append_nil]
  · exact .inr ⟨'-', rfl, .inr rfl⟩

theorem word_ne_empty {x : List Char} (h : IsWord x) : String.ofList x ≠ "" := by
  obtain ⟨-, c, r, rfl, -⟩ := Yaml.Scan.word_eq_cons h
  intro hempty
  have hnil : c :: r = [] := String.ofList_injective hempty
  cases hnil

/-- No word of JSON is another spelling of null or of a boolean. -/
theorem word_ne_spelling {x : List Char} (h : IsWord x) :
    ∀ s ∈ ["Null", "NULL", "~", "True", "TRUE", "False", "FALSE"], String.ofList x ≠ s := by
  intro s hs hx
  obtain rfl : x = s.toList := by rw [← hx, String.toList_ofList]
  rcases word_cases h with h | ⟨c, hc, hnumber⟩
  · have hword : ∀ s ∈ ["Null", "NULL", "~", "True", "TRUE", "False", "FALSE"],
        s.toList ∉ ["null".toList, "true".toList, "false".toList] := by decide
    exact hword s hs h
  · have hletter : ∀ s ∈ ["Null", "NULL", "~", "True", "TRUE", "False", "FALSE"],
        s.toList.head?.any (fun c => c.isDigit || c == '-') = false := by decide
    have hno := hletter s hs
    rw [hc, Option.any_some, Bool.or_eq_false_iff, beq_eq_false_iff_ne] at hno
    rcases hnumber with hdigit | hminus
    · exact nomatch hno.1.symm.trans hdigit
    · exact hno.2 hminus

theorem ofList_eq {x : List Char} (s : String) : String.ofList x = s ↔ x = s.toList := by
  rw [← String.toList_inj, String.toList_ofList]

theorem bool?_word {x : List Char} (h : IsWord x) : Yaml.Literal.bool? (String.ofList x) =
    if x = "true".toList then some true else if x = "false".toList then some false else none := by
  have hno := word_ne_spelling h
  rw [Yaml.Literal.bool?]
  simp only [Bool.or_eq_true, beq_iff_eq, hno "True" (by decide), hno "TRUE" (by decide),
    hno "False" (by decide), hno "FALSE" (by decide), or_false, ofList_eq]

theorem isNull_word {x : List Char} (h : IsWord x) :
    Yaml.Literal.isNull (String.ofList x) = true ↔ x = "null".toList := by
  have hno := word_ne_spelling h
  rw [Yaml.Literal.isNull]
  simp only [Bool.or_eq_true, beq_iff_eq, hno "Null" (by decide), hno "NULL" (by decide),
    hno "~" (by decide), or_false, ofList_eq]

/-- A word that is read for a setting that is a boolean. -/
theorem bool?_wordDraft {x : List Char} (h : IsWord x) :
    Yaml.Draft.bool? (.scalar .none .plain (String.ofList x)) =
      if x = "true".toList then some true else if x = "false".toList then some false else none := by
  rw [← bool?_word h, Yaml.Draft.bool?]
  exact if_pos (Or.inl rfl)

/-- A word that is read for a setting that may be left open. -/
theorem optionalText?_wordDraft {x : List Char} (h : IsWord x) :
    Yaml.Draft.optionalText? (.scalar .none .plain (String.ofList x)) =
      some (if x = "null".toList then none else some (String.ofList x)) := by
  rw [Yaml.Draft.optionalText?.eq_def]
  simp only [Yaml.Mark.none, if_true, word_ne_empty h, isNull_word h, false_or]

/-! ### Both readings -/

variable {text : String} {d : Draft} {c : Config} {w : Written}

/-- **A JSON value says in YAML what it says where types count less.** -/
theorem yamlSetting?_yamlDraft (name : String) (hw : w.Sound) :
    yamlSetting? name w.yamlDraft = looseSetting? name w := by
  rw [yamlSetting?]
  cases w with
  | word x =>
    rw [Written.Sound] at hw
    rw [Written.yamlDraft, looseSetting?, bool?_wordDraft hw, optionalText?_wordDraft hw]
    by_cases hvalidate : name = "validate"
    · rw [if_pos hvalidate, if_pos hvalidate]
      split_ifs <;> rfl
    · rw [if_neg hvalidate, if_neg hvalidate]
      by_cases hschema : name = "schema"
      · rw [if_pos hschema]
        by_cases hnull : x = "null".toList
        · rw [if_pos hnull, if_pos ⟨hschema, hnull⟩]
          rfl
        · rw [if_neg hnull, if_neg fun h => hnull h.2]
          rfl
      · rw [if_neg hschema, if_neg fun h => hschema h.1]
        rfl
  | quoted ps =>
    rw [Written.yamlDraft, looseSetting?]
    split_ifs <;> rfl
  | array items =>
    rw [Written.yamlDraft, looseSetting?.eq_def]
    split_ifs <;> rfl
  | object ms =>
    rw [Written.yamlDraft, looseSetting?.eq_def]
    split_ifs <;> rfl

theorem yamlMembers_pairDrafts (doc : Document) (ms : List (List Piece × Written))
    (hms : Written.SoundMembers ms) :
    (Written.pairDrafts ms).map (yamlMember? doc) = ms.map looseMember? := by
  induction ms with
  | nil => rfl
  | cons m ms ih =>
    obtain ⟨ps, w⟩ := m
    obtain ⟨-, hw, hms⟩ := hms
    have hvalue : doc.resolve? w.yamlDraft = some w.yamlDraft := by
      cases w <;> rw [Written.yamlDraft] <;> rfl
    have hmember : yamlMember? doc (.scalar .none .other (String.ofList (folded ps)), w.yamlDraft) =
        looseMember? (ps, w) := by
      rw [yamlMember?, hvalue, looseMember?, ← yamlSetting?_yamlDraft _ hw]
      rfl
    rw [Written.pairDrafts, List.map_cons, List.map_cons, hmember, ih hms]

theorem whole_of_ofYaml (h : ofYaml text = .ok c) : (Document.read text).whole = true := by
  rw [ofYaml, Yaml.Decoding.run] at h
  split at h
  · cases h
  · split_ifs at h with hwhole
    exact hwhole

/-- **The YAML reader gives what a JSON text says where types count less**, if it can read the text. -/
theorem ofYaml_written (hw : w.IsTextOf text.toList) :
    ofYaml text = .ok c ↔ (Document.read text).whole = true ∧ SaysLoosely w c := by
  by_cases hwhole : (Document.read text).whole = true
  swap
  · exact ⟨fun h => absurd (whole_of_ofYaml h) hwhole, fun h => absurd h.1 hwhole⟩
  have hroot := Document.root_of_isTextOf hw hwhole
  -- only an object says anything, and only a mapping or nothing is read
  have hother : (∀ mk pairs closed, w.yamlDraft ≠ .mapping mk pairs closed) →
      Yaml.Decoding.isNothing w.yamlDraft = false → (∀ ms, w ≠ .object ms) →
      (ofYaml text = .ok c ↔ (Document.read text).whole = true ∧ SaysLoosely w c) := by
    intro hmapping hnothing hobject
    refine ⟨fun h => absurd h (ofYaml_of_not_mapping hroot hmapping hnothing), ?_⟩
    rintro ⟨-, ms, fs, rfl, -⟩
    exact absurd rfl (hobject ms)
  have hsound := hw.sound
  cases w with
  | word x =>
    rw [Written.Sound] at hsound
    refine hother ?_ ?_ fun ms => (nomatch ·)
    · rw [Written.yamlDraft]
      exact fun mk pairs closed => (nomatch ·)
    · rw [Written.yamlDraft]
      unfold Yaml.Decoding.isNothing
      split
      next h => exact absurd (Yaml.Draft.scalar.inj h).2.2 (word_ne_empty hsound)
      next => rfl
  | quoted ps =>
    rw [Written.yamlDraft] at hother
    exact hother (fun mk pairs closed => (nomatch ·)) rfl fun ms => (nomatch ·)
  | array items =>
    rw [Written.yamlDraft] at hother
    exact hother (fun mk pairs closed => (nomatch ·)) rfl fun ms => (nomatch ·)
  | object ms =>
    rw [Written.yamlDraft] at hroot
    rw [Written.Sound] at hsound
    rw [ofYaml_mapping hroot, yamlMembers_pairDrafts _ ms hsound]
    constructor
    · rintro ⟨-, -, fs, hfs, htyped, hc⟩
      exact ⟨hwhole, ms, fs, rfl, hfs, htyped, hc⟩
    · rintro ⟨-, _, fs, ⟨⟩, hfs, htyped, hc⟩
      exact ⟨hwhole, rfl, fs, hfs, htyped, hc⟩

theorem parse_eq_error {f : Failure} (h : parse text = .error f) :
    ∃ t, f = .config ("Invalid configuration format: " ++ t) := by
  rw [parse] at h
  split at h
  · cases h
  · cases hyaml : ofYaml text with
    | ok c =>
      rw [hyaml] at h
      cases h
    | error t =>
      rw [hyaml] at h
      cases h
      exact ⟨_, rfl⟩

/-- **The settings of a JSON text**: what it says as JSON. If it says nothing, and if the text can be read as
YAML too, then what it says where types count less. Any other JSON text is an error of settings. -/
theorem parse_written (hd : Draft.ofChars text.toList = (d, true)) :
    (∀ f, parse text = .error f → ∃ t, f = .config ("Invalid configuration format: " ++ t)) ∧
    ∃ w : Written, w.IsTextOf text.toList ∧ w.draft = d ∧ ∀ c, parse text = .ok c ↔
      Says d c ∨ (∀ c', ¬ Says d c') ∧ (Document.read text).whole = true ∧ SaysLoosely w c := by
  refine ⟨fun f => parse_eq_error, ?_⟩
  obtain ⟨w, hw, hdraft⟩ := Written.exists_isTextOf hd
  refine ⟨w, hw, hdraft, fun c => ?_⟩
  have hmeans : ∀ c, ofJson? text = some c ↔ Says d c := by
    intro c
    rw [ofJson?_eq_some, hd]
    simp
  rw [parse]
  -- the YAML reader is asked only where the JSON reader has given nothing
  cases hjson : ofJson? text with
  | some c₀ =>
    have hsaid := (hmeans c₀).1 hjson
    simp only [Except.ok.injEq]
    constructor
    · rintro rfl
      exact .inl hsaid
    · rintro (h | ⟨h, -⟩)
      · exact Option.some.inj (hjson.symm.trans ((hmeans c).2 h))
      · exact absurd hsaid (h c₀)
  | none =>
    have hnone : ∀ c', ¬ Says d c' := by
      intro c' h
      have hsome := (hmeans c').2 h
      rw [hjson] at hsome
      cases hsome
    simp only [mapError_eq_ok_iff, ofYaml_written hw]
    constructor
    · exact fun h => .inr ⟨hnone, h⟩
    · rintro (h | ⟨-, h⟩)
      · exact absurd h (hnone c)
      · exact h

/-- An object with a number where a path is due. -/
def numbered : String := "\x7b\"output\":5\x7d"

theorem ofJson?_numbered : ofJson? numbered = none := by decide +kernel

theorem exists_ofChars_numbered : ∃ d, Draft.ofChars numbered.toList = (d, true) := by
  have hd : (Draft.ofChars numbered.toList).2 = true := by decide +kernel
  generalize Draft.ofChars numbered.toList = r at hd
  exact ⟨r.1, Prod.ext rfl hd⟩

theorem parse_numbered : parse numbered = .ok { standard with output := ⟨"5"⟩ } :=
  eq_ok_of_toOption (by decide +kernel)

/-- A number is a path, as it is written. -/
theorem parse_written_numbered : ∃ (d : Draft) (w : Written),
    Draft.ofChars numbered.toList = (d, true) ∧ w.IsTextOf numbered.toList ∧ w.draft = d ∧
      (Document.read numbered).whole = true ∧ SaysLoosely w { standard with output := ⟨"5"⟩ } := by
  obtain ⟨d, hd⟩ := exists_ofChars_numbered
  obtain ⟨-, w, hw, hdraft, hparse⟩ := parse_written hd
  refine ⟨d, w, hd, hw, hdraft, ?_⟩
  rcases (hparse _).1 parse_numbered with hmeans | ⟨-, hloosely⟩
  · have hjson := ofJson?_eq_some.2 ⟨d, hd, hmeans⟩
    rw [ofJson?_numbered] at hjson
    cases hjson
  · exact hloosely

/-- So not every JSON text that has settings is an object of values of the fields' types. -/
theorem parse_not_by_type : ¬ ∀ (text : String) (d : Draft), Draft.ofChars text.toList = (d, true) →
    ∀ c, parse text = .ok c ↔ ∃ (ms : List (Option String × Draft)) (fs : Fields),
      d = .object ms true ∧ ms.map member? = fs.map some ∧ fs.WellTyped ∧ c = ofFields fs := by
  intro h
  obtain ⟨d, hd⟩ := exists_ofChars_numbered
  obtain ⟨ms, fs, rfl, hfs, htyped, hc⟩ := (h numbered d hd _).1 parse_numbered
  have hjson := ofJson?_eq_some.2 ⟨_, hd, fs, .object hfs, htyped, hc⟩
  rw [ofJson?_numbered] at hjson
  cases hjson

end Scaffold.Config
