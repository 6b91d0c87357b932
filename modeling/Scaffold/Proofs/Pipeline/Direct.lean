import Scaffold.Proofs.Pipeline.Parse
import Scaffold.Proofs.Tree.Readable

/-!
# JSON documents with and without their value

A pipeline that does not check its documents reads a JSON document from its value, while the tree of
a text alone is read as the text comes. Both read the same tree, or neither reads one, except for
texts with a repeated field, which only the pipeline may read, and for texts in which a field without
a value is skipped, which only the other way may read (`parse_json_direct`).
-/

namespace Scaffold

/-- In some object that is read as a node, one of the four fields is repeated. -/
def RepeatsFieldIn (text : String) : Prop :=
  Record.Within Record.RepeatsField Draft.depthLimit (Draft.ofChars text.toList).1

/-- In some object that is read as a node, a field of another name has no value. -/
def SkipsUnreadableIn (text : String) : Prop :=
  Record.Within Record.SkipsUnreadable Draft.depthLimit (Draft.ofChars text.toList).1

namespace Node

theorem alike_ofRecord {x y : Except Decode.Fault Record} (h : Alike Record.Agrees x y) :
    Alike (fun m n : Node => m.same n = true) (ofRecord x) (ofRecord y) :=
  h.mapError.bind fun r s hrs => (Record.alike_toNode r s hrs).mapError

theorem ofJsonText_of_repeats {text : String} (h : RepeatsFieldIn text) :
    ∃ f, ofJsonText text = .error f := by
  have hread : ∃ f, Record.read text = .error f := by
    rw [Record.read]
    cases hd : Record.ofDraft Draft.depthLimit (Draft.ofChars text.toList).1 with
    | ok r => exact absurd hd (Record.ofDraft_ne_ok h r)
    | error f => exact ⟨f, by simp [hd, bind, Except.bind]⟩
  obtain ⟨f, hf⟩ := hread
  exact ⟨_, by rw [ofJsonText, hf]; rfl⟩

theorem readJson_of_skips {text : String} (h : SkipsUnreadableIn text) :
    ∃ f, readJson text = .error f := by
  have hread : Json.read? text = none := by
    rw [Json.read?]
    split
    next d heq =>
      rw [SkipsUnreadableIn, heq] at h
      exact Record.ofDraft?_eq_none h
    · rfl
  exact ⟨_, by rw [readJson, hread]⟩

/-- **A text without either difference is read the same** from its value. -/
theorem alike_ofJsonText {text : String} (hrepeats : ¬RepeatsFieldIn text)
    (hskips : ¬SkipsUnreadableIn text) :
    Alike (fun m n : Node => m.same n = true) (ofJsonText text)
      (readJson text >>= ofJson) := by
  have hexact := Draft.exact_ofChars text.toList
  rw [RepeatsFieldIn] at hrepeats
  rw [SkipsUnreadableIn] at hskips
  cases hchars : Draft.ofChars text.toList with
  | mk d whole =>
    rw [hchars] at hexact hrepeats hskips
    have hread : Record.read text = Record.ofDraft Draft.depthLimit d >>= fun r =>
        if whole then .ok r else .error .form := by rw [Record.read, hchars]
    rw [ofJsonText, hread, readJson]
    cases whole with
    | false =>
      have hvalue : Json.read? text = none := by rw [Json.read?, hchars]
      rw [hvalue]
      cases Record.ofDraft Draft.depthLimit d <;> exact .error _ _
    | true =>
      have hdraft : (Record.ofDraft Draft.depthLimit d >>= fun r =>
          if true then .ok r else .error .form) = Record.ofDraft Draft.depthLimit d := bind_pure _
      have hvalue : Json.read? text = Json.ofDraft? Draft.depthLimit d := by
        rw [Json.read?, hchars]
      rw [hdraft, hvalue]
      cases hv : Json.ofDraft? Draft.depthLimit d with
      | none =>
        cases hr : Record.ofDraft Draft.depthLimit d with
        | error f => exact .error _ _
        | ok r =>
          -- what is read and skips nothing has a value
          obtain ⟨v, hv'⟩ := Record.exists_ofDraft? _ d hr hskips
          rw [hv] at hv'
          cases hv'
      | some v => exact alike_ofRecord (Record.alike_ofDraft _ d hexact hv hrepeats)

end Node

namespace Pipeline

variable {p : Pipeline} {s : Site} {text : String}

theorem parse_json_unchecked (h : p.config.validate = false) : (p.parse text .json s).1 =
    (Node.readJson text >>= Node.ofJson).mapError (.staged .parse) := by
  rw [parse, Work.bind_of_ok (schema?_atStage (schema?_unchecked h))]
  refine (Work.fst_bind (Work.atStage_ofExcept _ _ s)).trans ?_
  cases Node.readJson text with
  | error f => rfl
  | ok v =>
    have hcheck : check none v s = (.ok (), s) := rfl
    refine (Work.fst_bind hcheck).trans ((Work.fst_bind (Work.atStage_ofExcept _ _ s)).trans ?_)
    exact bind_pure _

/-- **The two ways to read a JSON document agree but for two kinds of fields.** A text that repeats a
field is no tree by itself, one that skips a field without a value is none for the pipeline, and any
other text is none for both, or the same tree. -/
theorem parse_json_direct (hoff : p.config.validate = false) (text : String) (s : Site) :
    (RepeatsFieldIn text → ∃ f, Node.ofJsonText text = .error f) ∧
      (SkipsUnreadableIn text → ∃ f, (p.parse text .json s).1 = .error f) ∧
      (¬RepeatsFieldIn text → ¬SkipsUnreadableIn text →
        Alike (fun m n : Node => m.same n = true) (Node.ofJsonText text)
          (p.parse text .json s).1) := by
  rw [parse_json_unchecked hoff]
  refine ⟨Node.ofJsonText_of_repeats, fun h => ?_, fun hrepeats hskips => ?_⟩
  · obtain ⟨f, hf⟩ := Node.readJson_of_skips h
    exact ⟨_, by rw [hf]; rfl⟩
  · exact (Node.alike_ofJsonText hrepeats hskips).mapError_right

/-- Attributes, one of them repeated, a field that is skipped, and a child by position. -/
def readableText : String :=
  "\x7b\"tag\":\"a\",\"value\":\" t \",\"note\":[1e2],\"attributes\":\x7b\"b\":1,\"a\":0.5,\"b\":2\x7d," ++
  "\"children\":[[\"c\",null]]\x7d"

def unchecked : Pipeline := ⟨{ Config.standard with validate := false }, default⟩

theorem parse_json_readable : unchecked.config.validate = false ∧ ∃ m n,
    Node.ofJsonText readableText = .ok m ∧
      (unchecked.parse readableText .json .empty).1 = .ok n ∧ m.same n = true := by
  have hdirect : (Node.ofJsonText readableText).isOk = true := by decide +kernel
  have hvalue : (unchecked.parse readableText .json .empty).1.isOk = true := by decide +kernel
  obtain ⟨m, hm⟩ := exists_of_isOk hdirect
  obtain ⟨n, hn⟩ := exists_of_isOk hvalue
  obtain ⟨hrepeats, hskips, halike⟩ :=
    parse_json_direct (p := unchecked) rfl readableText .empty
  have hread := halike (fun h => by
      obtain ⟨f, hf⟩ := hrepeats h
      rw [hm] at hf
      cases hf) fun h => by
    obtain ⟨f, hf⟩ := hskips h
    rw [hn] at hf
    cases hf
  obtain ⟨n', hn', hsame⟩ := hread.exists_right hm
  rw [hn] at hn'
  cases hn'
  exact ⟨rfl, m, n, hm, hn, hsame⟩

def repeatedText : String := "\x7b\"tag\":\"a\",\"tag\":\"b\"\x7d"

def skippedText : String := "\x7b\"tag\":\"a\",\"note\":1e999\x7d"

/-- A field that is repeated, and a number that is too large in a field that is skipped. -/
theorem parse_json_differs : unchecked.config.validate = false ∧
    (∃ f n, Node.ofJsonText repeatedText = .error f ∧
      (unchecked.parse repeatedText .json .empty).1 = .ok n) ∧
    ∃ m f, Node.ofJsonText skippedText = .ok m ∧
      (unchecked.parse skippedText .json .empty).1 = .error f := by
  refine ⟨rfl, ?_, ?_⟩
  · obtain ⟨f, hf⟩ := exists_of_isOk_eq_false (x := Node.ofJsonText repeatedText)
      (by decide +kernel)
    obtain ⟨n, hn⟩ := exists_of_isOk (x := (unchecked.parse repeatedText .json .empty).1)
      (by decide +kernel)
    exact ⟨f, n, hf, hn⟩
  · obtain ⟨m, hm⟩ := exists_of_isOk (x := Node.ofJsonText skippedText) (by decide +kernel)
    obtain ⟨f, hf⟩ := exists_of_isOk_eq_false
      (x := (unchecked.parse skippedText .json .empty).1) (by decide +kernel)
    exact ⟨m, f, hm, hf⟩

end Pipeline

end Scaffold
