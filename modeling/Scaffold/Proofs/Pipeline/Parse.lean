import Scaffold.Pipeline
import Scaffold.Proofs.Json.Draft
import Scaffold.Proofs.Tree.Document
import Scaffold.Proofs.Work

/-!
# Reading documents in a pipeline

With the schema of trees, reading an XML document is the same as without a schema, since every tree
passes (`parse_xml_unchecked`). A JSON document that passes can then only fail for a collision, and
one that does not pass fails in its own stage (`parse_json_tree`).
-/

namespace Scaffold

namespace Pipeline

open Json

variable {p : Pipeline} {s : Site} {text : String} {schema : Option Schema}

/-- The site after an XML document has been read as a tree. -/
def noted (s : Site) (n : Node) : Site :=
  { s with notices := ⟨.debug, "Built node tree with root <" ++ n.tag ++ ">"⟩ ::
      ⟨.debug, "Parsed XML document with root <" ++ n.tag ++ ">"⟩ :: s.notices }

theorem schema?_unchecked (h : p.config.validate = false) : p.schema? s = (.ok none, s) := by
  rw [schema?, h]
  rfl

theorem schema?_tree (h : p.config.validate = true) (hs : p.config.schema = none) :
    p.schema? s = (.ok (some Schema.tree), s) := by
  rw [schema?, h, hs]
  rfl

theorem schema?_atStage (h : p.schema? s = (.ok schema, s)) :
    Work.atStage .validate p.schema? s = (.ok schema, s) := by
  rw [Work.atStage, Work.mapFailure, h]

/-- **How an XML document is read**, with a schema that every tree passes or without one. -/
theorem parse_xml_apply (h : p.schema? s = (.ok schema, s))
    (hpass : ∀ sc, schema = some sc → ∀ n : Node, sc.validate n.toJson = .ok ()) :
    p.parse text .xml s = match Node.ofMarkup .normalized text with
      | .error f => (.error (.staged .parse f), s)
      | .ok n => (.ok n, noted s n) := by
  have hread := Work.atStage_ofExcept .parse (Node.ofMarkup .normalized text) s
  rw [parse, Work.bind_of_ok (schema?_atStage h)]
  cases hn : Node.ofMarkup .normalized text with
  | error f =>
    rw [hn] at hread
    exact Work.bind_of_error hread
  | ok n =>
    rw [hn] at hread
    have hcheck : ∀ t : Site, check schema n.document.canonical t = (.ok (), t) := by
      intro t
      cases schema with
      | none => rfl
      | some sc =>
        have hsc : sc.validate n.document.canonical = .ok () := hpass sc rfl n
        rw [check, Work.atStage_ofExcept, hsc]
        rfl
    have hnote : noteMarkup n s = (.ok (), { s with notices :=
        ⟨.debug, "Parsed XML document with root <" ++ n.tag ++ ">"⟩ :: s.notices }) := rfl
    refine (Work.bind_of_ok hread).trans ((Work.bind_of_ok hnote).trans ?_)
    exact (Work.bind_of_ok (hcheck _)).trans rfl

/-- **How a JSON document is read** with a schema: each part fails in its own stage. -/
theorem parse_json_apply {sc : Schema} (h : p.schema? s = (.ok (some sc), s)) :
    (p.parse text .json s).1 = (do
      let v ← (Node.readJson text).mapError (.staged .parse)
      (sc.validate v).mapError (.staged .validate)
      (Node.ofJson v).mapError (.staged .parse)) := by
  rw [parse, Work.bind_of_ok (schema?_atStage h)]
  refine (Work.fst_bind (Work.atStage_ofExcept _ _ s)).trans (bind_congr fun v => ?_)
  have hcheck : check (some sc) v s = ((sc.validate v).mapError (.staged .validate), s) :=
    Work.atStage_ofExcept _ _ s
  refine (Work.fst_bind hcheck).trans (bind_congr fun _ => ?_)
  refine (Work.fst_bind (Work.atStage_ofExcept _ _ s)).trans ?_
  exact bind_pure _

/-! ### Documents and the schema of trees -/

theorem validate_toJson (n : Node) : Schema.tree.validate n.toJson = .ok () :=
  Schema.validate_eq_ok_iff.2 (Schema.violations_of_treeDocument (treeDocument_toJson n))

/-- **Every tree passes the schema of trees.** So an XML document is read as it is read without a
schema, and never fails but in the stage that parses it. -/
theorem parse_xml_unchecked : (∀ n : Node, Schema.tree.validate n.toJson = .ok ()) ∧
    ∀ p : Pipeline, p.config.schema = none → ∀ (text : String) (s : Site),
      p.parse text .xml s =
        ({ p with config := { p.config with validate := false } } : Pipeline).parse text .xml s ∧
      ∀ f, (p.parse text .xml s).1 = .error f → f.stage? = some .parse := by
  refine ⟨validate_toJson, fun p hp text s => ?_⟩
  have hchecked : p.parse text .xml s = match Node.ofMarkup .normalized text with
      | .error f => (.error (.staged .parse f), s)
      | .ok n => (.ok n, noted s n) := by
    cases hv : p.config.validate with
    | false => exact parse_xml_apply (schema?_unchecked hv) (by simp)
    | true =>
      refine parse_xml_apply (schema?_tree hv hp) ?_
      rintro sc ⟨⟩ n
      exact validate_toJson n
  refine ⟨hchecked.trans (parse_xml_apply (schema?_unchecked rfl) (by simp)).symm, ?_⟩
  intro f hf
  rw [hchecked] at hf
  cases hn : Node.ofMarkup .normalized text with
  | error g =>
    rw [hn] at hf
    cases hf
    rfl
  | ok n =>
    rw [hn] at hf
    cases hf

theorem parse_xml_nested : Config.standard.validate = true ∧ Config.standard.schema = none ∧
    (Pipeline.parse ⟨.standard, default⟩ "<a x=\"1\">t<b/></a>" .xml .empty).1.isOk = true := by
  refine ⟨rfl, rfl, ?_⟩
  rw [(parse_xml_unchecked.2 ⟨.standard, default⟩ rfl _ _).1]
  decide +kernel

/-- What becomes of a JSON text that is read with the schema of trees. -/
theorem parse_json_cases (hon : p.config.validate = true) (hnone : p.config.schema = none)
    (text : String) (s : Site) :
    (Json.read? text = none ∧ ∃ d, (p.parse text .json s).1 = .error (.staged .parse (.parse d))) ∨
      ∃ v, Json.read? text = some v ∧
        ((Schema.tree.validate v ≠ .ok () ∧
            ∃ d, (p.parse text .json s).1 = .error (.staged .validate (.validation d))) ∨
          (Schema.tree.validate v = .ok () ∧ v.Collides ∧
            ∃ d, (p.parse text .json s).1 = .error (.staged .parse (.parse d))) ∨
          (Schema.tree.validate v = .ok () ∧ ¬ v.Collides ∧
            ∃ n, (p.parse text .json s).1 = .ok n ∧ n.toJson = v.treeForm)) := by
  rw [parse_json_apply (schema?_tree hon hnone), Node.readJson]
  cases hread : Json.read? text with
  | none => exact .inl ⟨rfl, _, rfl⟩
  | some v =>
    refine .inr ⟨v, rfl, ?_⟩
    have hv := Json.canonical_of_read? hread
    by_cases hs : Schema.tree.validate v = .ok ()
    · have hdocument := (Schema.validate_tree_eq_ok_iff hv).1 hs
      obtain ⟨hfault, hnode⟩ := Node.ofJson_of_treeDocument hdocument hv
      by_cases hc : v.Collides
      · obtain ⟨d, hd⟩ := hfault hc
        exact .inr (.inl ⟨hs, hc, d, by simp [hs, hd, Except.mapError, bind, Except.bind]⟩)
      · obtain ⟨n, hn, hform⟩ := hnode hc
        exact .inr (.inr ⟨hs, hc, n, by simp [hs, hn, Except.mapError, bind, Except.bind], hform⟩)
    · obtain ⟨d, hd⟩ := Schema.validate_eq_error hs
      exact .inl ⟨hs, d, by simp [hd, Except.mapError, bind, Except.bind]⟩

/-- **A document that passes the schema of trees is a tree unless something collides in it**, and
the tree is written in the form of the document. So a JSON text fails in the stage that parses it
only if it is no JSON, or for a collision; whatever else is wrong with it fails the check. -/
theorem parse_json_tree :
    (∀ v : Json, v.canonical = v → Schema.tree.validate v = .ok () →
      ((∃ f, Node.ofJson v = .error f) ↔ v.Collides) ∧
      (∀ f, Node.ofJson v = .error f → ∃ d, f = .parse d) ∧
      ∀ n, Node.ofJson v = .ok n → n.toJson = v.treeForm) ∧
    ∀ p : Pipeline, p.config.validate = true → p.config.schema = none → ∀ (text : String) (s : Site),
      ((∃ f, (p.parse text .json s).1 = .error (.staged .parse f)) ↔
        Json.read? text = none ∨
          ∃ v, Json.read? text = some v ∧ Schema.tree.validate v = .ok () ∧ v.Collides) ∧
      (∀ v, Json.read? text = some v → Schema.tree.validate v ≠ .ok () →
        ∃ d, (p.parse text .json s).1 = .error (.staged .validate (.validation d))) ∧
      ∀ v, Json.read? text = some v → Schema.tree.validate v = .ok () → ¬ v.Collides →
        ∃ n, (p.parse text .json s).1 = .ok n ∧ n.toJson = v.treeForm := by
  constructor
  · intro v hv hs
    have hdocument := (Schema.validate_tree_eq_ok_iff hv).1 hs
    obtain ⟨hfault, hnode⟩ := Node.ofJson_of_treeDocument hdocument hv
    by_cases hc : v.Collides
    · obtain ⟨d, hd⟩ := hfault hc
      simp [hd, hc]
    · obtain ⟨m, hm, hform⟩ := hnode hc
      simp [hm, hc, hform]
  · intro p hon hnone text s
    rcases parse_json_cases hon hnone text s with ⟨hread, d, hr⟩ | ⟨v, hread, hcases⟩
    · simp [hread, hr]
    · rcases hcases with ⟨hs, d, hr⟩ | ⟨hs, hc, d, hr⟩ | ⟨hs, hc, n, hr, hform⟩
      · simp [hread, hr, hs]
      · simp [hread, hr, hs, hc]
      · simp [hread, hr, hs, hc, hform]

/-- A value, and an attribute of its name. -/
def collision : Json :=
  .object (treeMembers "a" (some (.string " x ")) (some [("value", .string "y")]) none)

def collisionText : String :=
  "\x7b\"tag\":\"a\",\"value\":\" x \",\"attributes\":\x7b\"value\":\"y\"\x7d\x7d"

theorem parse_json_collision : (∃ f, Node.ofJson collision = .error f) ∧
    ∃ f, (Pipeline.parse ⟨.standard, default⟩ collisionText .json .empty).1 =
      .error (.staged .parse f) := by
  have hread : Json.read? collisionText = some collision := by cbv
  have hdocument : TreeDocument collision :=
    .mk (by decide) (by simp) (by decide) (by simp)
  have hv := Json.canonical_of_read? hread
  have hs := (Schema.validate_tree_eq_ok_iff hv).2 hdocument
  have hc : collision.Collides := collides_treeMembers_iff.2 (.inl ⟨" x ", rfl, by decide, by decide⟩)
  exact ⟨(parse_json_tree.1 collision hv hs).1.2 hc,
    (parse_json_tree.2 ⟨.standard, default⟩ rfl rfl _ _).1.2 (.inr ⟨collision, hread, hs, hc⟩)⟩

end Pipeline

end Scaffold
