import Scaffold.Proofs.Rendering.Context
import Scaffold.Proofs.Template.Name
import Scaffold.Proofs.Tree.Attributes

/-!
# Rendering a name

A template that is a name alone shows which names a node has: its attributes, `children`, and the
four functions that every template has beside them. Every other name is a fault
(`Node.render_name`), so nothing else can be reached from a template by its name.
-/

namespace Scaffold

open Template

/-- The functions that every template has. -/
def functionNames : List String := ["range", "dict", "namespace", "debug"]

theorem exists_builtin? {name : String} (h : name ∈ functionNames) :
    ∃ f, Run.builtin? name = some (.builtin f) := by
  simp only [functionNames, List.mem_cons, List.not_mem_nil, or_false] at h
  rcases h with rfl | rfl | rfl | rfl
  · exact ⟨_, rfl⟩
  · exact ⟨_, rfl⟩
  · exact ⟨_, rfl⟩
  · exact ⟨_, rfl⟩

theorem builtin?_eq_none {name : String} (h : name ∉ functionNames) : Run.builtin? name = none := by
  simp only [functionNames, List.mem_cons, List.not_mem_nil, or_false, not_or] at h
  rw [Run.builtin?] <;> simp [h]

theorem Template.Value.ofSorted_ne_undefined (v : Json) : ofSorted v ≠ .undefined false := by
  cases v with
  | number n => cases n <;> simp [ofSorted, ofNumber]
  | _ => simp [ofSorted, ofText]

namespace Node

variable {r : Repository} {s : Site} {n : Node} {mode name : String} {modes : List String}

/-- What a node shows under a name is never the value of a missing name. -/
theorem attribute?_context_defined (n : Node) (name : String) :
    n.context.attribute? .empty name ≠ some (.undefined false) := by
  by_cases hname : name = "children"
  · subst hname
    rw [n.attribute?_context_children]
    simp
  · rw [n.attribute?_context .empty hname, Ne, Option.map_eq_some_iff]
    rintro ⟨v, -, hv⟩
    exact Value.ofSorted_ne_undefined _ hv

/-- The template of a mode is a name alone. -/
theorem render_nameSource (hname : Scan.IsName name.toList)
    (hconstant : Reading.constant? name = none) (hnot : name ≠ "not")
    (hlisted : r.store.listed s.disk n.tag = .ok modes) (hmode : mode ∈ modes)
    (hsource : r.answer s (templateName n.tag mode) =
      Template.read (templateName n.tag mode) (nameSource name)) :
    (n.render r mode s).1 = (nameText (templateName n.tag mode) .empty n.context name).mapError
      (.render (templateName n.tag mode)) := by
  rw [read_nameSource hname hconstant hnot] at hsource
  rw [(n.render_apply r mode s).1, Inquiry.resultAt, eval_rendering, hlisted]
  simp only [List.contains_iff_mem, hmode, if_true]
  rw [eval_renderNamed, hsource]
  simp only
  rw [eval_renderTemplate_alone (n.attribute?_context_defined name)]

/-- **The names that a template of a node has.** In a mode whose template is a name alone, a node is
rendered as its children or its attribute of this name. Otherwise it is rendered as the function of
this name, if it is one of the four, and every other name is a fault. -/
theorem render_name (hname : Scan.IsName name.toList) (hconstant : Reading.constant? name = none)
    (hnot : name ≠ "not") (hlisted : r.store.listed s.disk n.tag = .ok modes) (hmode : mode ∈ modes)
    (hsource : r.answer s (templateName n.tag mode) =
      Template.read (templateName n.tag mode) (nameSource name)) :
    (name = "children" →
      (n.render r mode s).1 = .ok ((Value.list (n.children.map .node)).shown .empty)) ∧
    (∀ v, n.attribute? name = some v →
      (n.render r mode s).1 = .ok ((Value.ofJson v).shown .empty)) ∧
    (n.attribute? name = none → name ∈ functionNames →
      ∃ f, Run.builtin? name = some (.builtin f) ∧
        (n.render r mode s).1 = .ok ((Value.builtin f).shown .empty)) ∧
    (name ≠ "children" → n.attribute? name = none → name ∉ functionNames →
      (n.render r mode s).1 = .error (.render (templateName n.tag mode)
        ((RenderFault.bare .undefinedValue).placed (templateName n.tag mode) 1))) := by
  have hrender := render_nameSource hname hconstant hnot hlisted hmode hsource
  refine ⟨fun h => ?_, fun v hv => ?_, fun hnone hfunction => ?_, fun hne hnone hno => ?_⟩
  · subst h
    rw [hrender, nameText, n.attribute?_context_children]
    rfl
  · -- no attribute is called like the children
    have hne : name ≠ "children" := by
      rintro rfl
      have hkey : "children" ∈ n.attributes.keys :=
        Entries.mem_keys.2 ⟨v, Attributes.get?_eq_some_iff.1 hv⟩
      cases n with
      | mk t a c tag_ne free => exact free _ hkey (by decide)
    rw [hrender, nameText, n.attribute?_context .empty hne, hv]
    rfl
  · obtain ⟨f, hf⟩ := exists_builtin? hfunction
    have hne : name ≠ "children" := by
      rintro rfl
      exact absurd hfunction (by decide)
    refine ⟨f, hf, ?_⟩
    rw [hrender, nameText, n.attribute?_context .empty hne, hnone, hf]
    rfl
  · rw [hrender, nameText, n.attribute?_context .empty hne, hnone, builtin?_eq_none hno]
    rfl

theorem titledTag_ne : "a" ≠ "" := by decide

def titledAttributes : Attributes := ⟨[("title", .string "t")], List.nodup_singleton _⟩

theorem titledAttributes_free : ∀ k ∈ titledAttributes.keys, k ∉ reservedNames := by decide

/-- A node with one attribute. -/
def titled : Node := .mk "a" titledAttributes [] titledTag_ne titledAttributes_free

/-- A store whose only template, for this node, is a name alone. -/
def naming (name : String) : Repository :=
  ⟨.memory (MemoryStore.empty.insert "a" "m" (nameSource name)), 0⟩

theorem listed_naming (name : String) (d : Disk) :
    (naming name).store.listed d titled.tag = .ok ["m"] := rfl

theorem answer_naming (name : String) : (naming name).answer .empty (templateName titled.tag "m") =
    Template.read (templateName titled.tag "m") (nameSource name) := by
  have hkept : Site.empty.kept? 0 (templateName titled.tag "m") = none := rfl
  have hheld : (naming name).store.held Site.empty.disk (templateName titled.tag "m") =
      .ok (some (nameSource name)) := rfl
  rw [Repository.answer_of_missing hkept, hheld]
  rfl

/-- An attribute that is there, and one that is missing. -/
theorem render_name_titled : (titled.render (naming "title") "m" .empty).1 = .ok "t" ∧
    (titled.render (naming "body") "m" .empty).1 = .error (.render "a/m.jinja"
      ((RenderFault.bare .undefinedValue).placed "a/m.jinja" 1)) := by
  have htitle := (render_name (by decide) (by decide) (by decide) (listed_naming "title" _)
    (by decide) (answer_naming "title")).2.1 (.string "t") rfl
  have hbody := (render_name (by decide) (by decide) (by decide) (listed_naming "body" _)
    (by decide) (answer_naming "body")).2.2.2 (by decide) rfl (by decide)
  exact ⟨htitle, hbody⟩

/-- **The name of a function is no fault**, although the node has nothing under it. -/
theorem render_range : titled.attribute? "range" = none ∧
    (titled.render (naming "range") "m" .empty).1 =
      .ok "minijinja::functions::builtins::range" := by
  refine ⟨rfl, ?_⟩
  rw [render_nameSource (by decide) (by decide) (by decide) (listed_naming "range" _) (by decide)
    (answer_naming "range")]
  rfl

end Node

end Scaffold
