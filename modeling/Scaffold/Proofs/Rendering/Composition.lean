import Scaffold.Proofs.Path.Join
import Scaffold.Proofs.Rendering.Context
import Scaffold.Proofs.Store.Memory
import Scaffold.Proofs.Template.Rendered
import Scaffold.Proofs.Tree.Preorder

/-!
# Rendering composes over the tree

If the templates of a mode are wrappings, a node is rendered as its value and the renderings of its
children between the two texts for its tag (`Node.wrapped`), and so on down the tree. It fails for the
first node in pre-order that cannot be rendered by itself, and the failure of that node is what started
the failure of the whole (`Node.render_wrapped`).
-/

namespace Scaffold

open Template

namespace Node

/-! ### Rendering with fixed answers -/

variable {A : String → Except RenderFault Template} {M : String → Except Failure (List String)}
  {K : Kept} {mode : String} {wrapping : String → Wrapping} {n : Node}

mutual

/-- **A tree between the texts for its tags**: for every node the first text, the value, the children
in order and the second text. -/
def wrapped (wrapping : String → Wrapping) : Node → String
  | n@(mk t _ c _ _) =>
    (wrapping t).before ++ (n.text?.getD "" ++ (wrappedAll wrapping c ++ (wrapping t).after))

def wrappedAll (wrapping : String → Wrapping) : List Node → String
  | [] => ""
  | n :: r => wrapped wrapping n ++ wrappedAll wrapping r

end

theorem wrapped_eq (wrapping : String → Wrapping) (n : Node) : n.wrapped wrapping =
    (wrapping n.tag).before ++ (n.text?.getD "" ++
      (wrappedAll wrapping n.children ++ (wrapping n.tag).after)) := by
  obtain ⟨t, a, c, ht, hf⟩ := n
  rw [wrapped]
  rfl

/-- The `value` of a node is a text, if it has one. -/
def Textual (n : Node) : Prop := ∀ v, n.attribute? textName = some v → ∃ x, v = .string x

/-- **A node that can be rendered by itself**: its tag has the mode, and it has a value. -/
structure Complete (M : String → Except Failure (List String)) (mode : String) (n : Node) :
    Prop where
  listed : ∃ ms, M n.tag = .ok ms ∧ mode ∈ ms
  value : (n.attribute? textName).isSome

/-- **Why a node cannot be rendered by itself**: there is no group for its tag, or the mode is not in
it, or the node has no value. -/
inductive Lacks (M : String → Except Failure (List String)) (mode : String) (n : Node) :
    Failure → Prop
  | group : M n.tag = .error (.templateNotFound n.tag) → Lacks M mode n (.templateNotFound n.tag)
  | mode {ms : List String} : M n.tag = .ok ms → mode ∉ ms →
    Lacks M mode n (.invalidMode n.tag mode ms)
  | value {ms : List String} (line : Nat) : M n.tag = .ok ms → mode ∈ ms →
    n.attribute? textName = none → Lacks M mode n (.render (templateName n.tag mode)
      ((RenderFault.bare .undefinedValue).placed (templateName n.tag mode) line))

/-- These answers give wrappings for the tags that have the mode. -/
structure WrappingAnswers (A : String → Except RenderFault Template)
    (M : String → Except Failure (List String)) (mode : String) (wrapping : String → Wrapping) :
    Prop where
  listed : ∀ tag, M tag = .error (.templateNotFound tag) ∨ ∃ ms, M tag = .ok ms
  template : ∀ tag ms, M tag = .ok ms → mode ∈ ms → A (templateName tag mode) =
    .ok ⟨templateName tag mode, (wrapping tag).statements mode⟩

/-- What the rendering of a child comes to in the template of a node. -/
def childText (A : String → Except RenderFault Template)
    (M : String → Except Failure (List String)) (wrapping : String → Wrapping) (mode : String)
    (n c : Node) : Except RenderFault String :=
  ((c.rendering mode).eval A M none).mapError
    (childFault (templateName n.tag mode) (wrapping n.tag).line c mode)

theorem joined_congr {ε : Type} {g g' : Node → Except ε String} {cs : List Node}
    (h : ∀ c ∈ cs, g c = g' c) : Wrapping.joined g cs = Wrapping.joined g' cs := by
  induction cs with
  | nil => rfl
  | cons c r ih =>
    rw [Wrapping.joined, Wrapping.joined, h c List.mem_cons_self,
      ih fun d hd => h d (List.mem_cons_of_mem _ hd)]

/-- One level of the tree, if the renderings of the children do not turn on what is kept. -/
theorem eval_wrapping_of_steady (h : WrappingAnswers A M mode wrapping) (hn : n.Textual)
    (hsteady : ∀ c ∈ n.children, (c.rendering mode).Steady A M) {ms : List String}
    (hM : M n.tag = .ok ms) (hm : mode ∈ ms) : (n.rendering mode).eval A M K =
      ((wrapping n.tag).outcome (templateName n.tag mode) n.text?
        (Wrapping.joined (n.childText A M wrapping mode) n.children)).mapError
          (.render (templateName n.tag mode)) := by
  have hsteadyChild : ∀ c ∈ n.children, (n.childRendering c mode).Steady A M := fun c hc => by
    rw [childRendering, if_pos (height_lt_of_mem_children hc)]
    exact hsteady c hc
  have hchildren : Wrapping.joined (fun c => ((n.childRendering c mode).eval A M none).mapError
      (childFault (templateName n.tag mode) (wrapping n.tag).line c mode)) n.children =
      Wrapping.joined (n.childText A M wrapping mode) n.children :=
    joined_congr fun c hc => by rw [childRendering, if_pos (height_lt_of_mem_children hc), childText]
  rw [eval_rendering, hM]
  simp only [List.contains_iff_mem, hm, if_true]
  rw [eval_renderNamed, h.template _ _ hM hm]
  simp only
  rw [(wrapping n.tag).eval_renderTemplate (fun heap => n.attribute?_context_text heap hn)
    n.attribute?_context_children _ hsteadyChild, hchildren]

/-- **Wrappings do not ask what is kept**, at any level of a tree. -/
theorem steady_rendering (h : WrappingAnswers A M mode wrapping) : ∀ n : Node,
    (∀ x ∈ n.preorder, x.Textual) → (n.rendering mode).Steady A M := by
  intro n
  induction hheight : n.height using Nat.strongRecOn generalizing n with
  | ind k ih =>
    intro htext K K'
    subst hheight
    have hsteady : ∀ c ∈ n.children, (c.rendering mode).Steady A M := fun c hc =>
      ih _ (height_lt_of_mem_children hc) c rfl fun x hx => htext x (preorder_subset hc hx)
    rcases h.listed n.tag with hM | ⟨ms, hM⟩
    · rw [eval_rendering, eval_rendering, hM]
    · by_cases hm : mode ∈ ms
      · have hn := htext n n.mem_preorder
        rw [eval_wrapping_of_steady h hn hsteady hM hm, eval_wrapping_of_steady h hn hsteady hM hm]
      · rw [eval_rendering, eval_rendering, hM]
        simp only [List.contains_iff_mem, hm, if_false]

/-- **One level of the tree.** -/
theorem eval_wrapping (h : WrappingAnswers A M mode wrapping) (hn : ∀ x ∈ n.preorder, x.Textual)
    {ms : List String} (hM : M n.tag = .ok ms) (hm : mode ∈ ms) :
    (n.rendering mode).eval A M K =
      ((wrapping n.tag).outcome (templateName n.tag mode) n.text?
        (Wrapping.joined (n.childText A M wrapping mode) n.children)).mapError
          (.render (templateName n.tag mode)) :=
  eval_wrapping_of_steady h (hn n n.mem_preorder) (fun c hc => steady_rendering h c fun x hx =>
    hn x (preorder_subset hc hx)) hM hm

/-- A tree of complete nodes is rendered. -/
theorem eval_complete (h : WrappingAnswers A M mode wrapping) : ∀ (n : Node),
    (∀ x ∈ n.preorder, x.Textual) → (∀ x ∈ n.preorder, x.Complete M mode) →
      (n.rendering mode).eval A M K = .ok (n.wrapped wrapping) := by
  intro n
  induction hheight : n.height using Nat.strongRecOn generalizing n K with
  | ind k ih =>
    intro htext hall
    subst hheight
    have hown := hall n n.mem_preorder
    obtain ⟨ms, hM, hm⟩ := hown.listed
    have hchildren : ∀ cs : List Node, cs ⊆ n.children →
        Wrapping.joined (n.childText A M wrapping mode) cs = .ok (wrappedAll wrapping cs) := by
      intro cs hcs
      induction cs with
      | nil => rfl
      | cons c r ihr =>
        obtain ⟨hc, hr⟩ := List.cons_subset.1 hcs
        have hchild : (c.rendering mode).eval A M none = _ := ih _ (height_lt_of_mem_children hc) c rfl
          (fun x hx => htext x (preorder_subset hc hx)) fun x hx => hall x (preorder_subset hc hx)
        rw [Wrapping.joined, childText, hchild, ihr hr]
        rfl
    obtain ⟨v, hv⟩ := Option.isSome_iff_exists.1 hown.value
    obtain ⟨x, rfl⟩ := htext n n.mem_preorder v hv
    rw [eval_wrapping h htext hM hm, hchildren _ (List.Subset.refl _), text?, hv]
    rw [wrapped_eq, text?, hv]
    rfl

/-- Of two lists one after the other, either the first has the element that ends a prefix, or the
prefix goes beyond it. -/
theorem append_eq_append_cons {α : Type} {l r before after : List α} {x : α}
    (h : l ++ r = before ++ x :: after) : (∃ rest, l = before ++ x :: rest) ∨
      ∃ more, before = l ++ more ∧ r = more ++ x :: after := by
  rcases List.append_eq_append_iff.1 h with ⟨more, hbefore, hr⟩ | ⟨rest, hl, hrest⟩
  · exact .inr ⟨more, hbefore, hr⟩
  · rcases List.cons_eq_append_iff.1 hrest with ⟨rfl, hr⟩ | ⟨rest', rfl, -⟩
    · exact .inr ⟨[], by rw [hl, List.append_nil, List.append_nil], hr⟩
    · exact .inl ⟨rest', hl⟩

/-- A node that cannot be rendered by itself fails for this reason. -/
theorem eval_lacking (h : WrappingAnswers A M mode wrapping) (hn : ∀ x ∈ n.preorder, x.Textual)
    (hx : ¬ n.Complete M mode) :
    ∃ f, n.Lacks M mode f ∧ (n.rendering mode).eval A M K = .error f := by
  rcases h.listed n.tag with hM | ⟨ms, hM⟩
  · exact ⟨_, .group hM, by rw [eval_rendering, hM]⟩
  · by_cases hm : mode ∈ ms
    · have hnone : n.attribute? textName = none := by
        rw [← Option.not_isSome_iff_eq_none]
        exact fun hsome => hx ⟨⟨ms, hM, hm⟩, hsome⟩
      refine ⟨_, .value (wrapping n.tag).line hM hm hnone, ?_⟩
      rw [eval_wrapping h hn hM hm, text?, hnone]
      rfl
    · refine ⟨_, .mode hM hm, ?_⟩
      rw [eval_rendering, hM]
      simp only [List.contains_iff_mem, hm, if_false]

theorem Lacks.innermost {f : Failure} (h : n.Lacks M mode f) : f.innermost = f := by
  cases h <;> rfl

/-- The children of a node are not rendered if one of them is not, and those before it are. -/
theorem joined_first (h : WrappingAnswers A M mode wrapping) {x : Node} {after : List Node}
    (hrender : ∀ c ∈ n.children, ∀ before rest, c.preorder = before ++ x :: rest →
      (∀ y ∈ before, y.Complete M mode) →
        ∃ f₀ f, x.Lacks M mode f₀ ∧ (c.rendering mode).eval A M none = .error f ∧ f.innermost = f₀)
    (htext : ∀ y ∈ n.preorder, y.Textual) (cs before : List Node) (hcs : cs ⊆ n.children)
    (hsplit : cs.flatMap preorder = before ++ x :: after) (hall : ∀ y ∈ before, y.Complete M mode) :
    ∃ f₀ f c, x.Lacks M mode f₀ ∧ f.innermost = f₀ ∧
      Wrapping.joined (n.childText A M wrapping mode) cs =
        .error (childFault (templateName n.tag mode) (wrapping n.tag).line c mode f) := by
  induction cs generalizing before with
  | nil => exact absurd hsplit.symm (by simp)
  | cons c r ih =>
    obtain ⟨hc, hr⟩ := List.cons_subset.1 hcs
    rw [List.flatMap_cons] at hsplit
    rw [Wrapping.joined, childText]
    -- the node is in this child, or in one after it
    rcases append_eq_append_cons hsplit with ⟨rest, hhere⟩ | ⟨more, rfl, hthere⟩
    · obtain ⟨f₀, f, hf₀, heval, hinner⟩ := hrender c hc before rest hhere hall
      exact ⟨f₀, f, c, hf₀, hinner, by rw [heval]; rfl⟩
    · obtain ⟨f₀, f, d, hf₀, hinner, hjoined⟩ := ih more hr hthere fun y hy =>
        hall y (List.mem_append_right _ hy)
      have hchild : (c.rendering mode).eval A M none = _ :=
        eval_complete h c (fun y hy => htext y (preorder_subset hc hy)) fun y hy =>
          hall y (List.mem_append_left _ hy)
      exact ⟨f₀, f, d, hf₀, hinner, by rw [hchild, hjoined]; rfl⟩

/-- **A tree fails for its first node in pre-order that cannot be rendered by itself.** -/
theorem eval_first (h : WrappingAnswers A M mode wrapping) {x : Node} (hx : ¬ x.Complete M mode) :
    ∀ (n : Node) (before after : List Node), (∀ y ∈ n.preorder, y.Textual) →
      n.preorder = before ++ x :: after → (∀ y ∈ before, y.Complete M mode) →
        ∃ f₀ f, x.Lacks M mode f₀ ∧ (n.rendering mode).eval A M K = .error f ∧ f.innermost = f₀ ∧
          (before ≠ [] → ∃ fault, f = .render (templateName n.tag mode) fault) := by
  intro n
  induction hheight : n.height using Nat.strongRecOn generalizing n K with
  | ind k ih =>
    intro before after htext hn hbefore
    subst hheight
    rw [preorder_eq] at hn
    cases before with
    | nil =>
      obtain ⟨rfl, -⟩ := List.cons.inj hn
      obtain ⟨f, hf, heval⟩ := eval_lacking h htext hx
      exact ⟨f, f, hf, heval, hf.innermost, fun hne => absurd rfl hne⟩
    | cons y before =>
      obtain ⟨rfl, hrest⟩ := List.cons.inj hn
      have hown := hbefore n List.mem_cons_self
      obtain ⟨ms, hM, hm⟩ := hown.listed
      obtain ⟨f₀, f, c, hf₀, hinner, hjoined⟩ := joined_first h (fun c hc before rest hhere hall => by
          obtain ⟨f₀, f, hf₀, heval, hinner, -⟩ := ih _ (height_lt_of_mem_children hc) c rfl before
            rest (fun y hy => htext y (preorder_subset hc hy)) hhere hall
          exact ⟨f₀, f, hf₀, heval, hinner⟩)
        htext n.children before (List.Subset.refl _) hrest
        fun y hy => hbefore y (List.mem_cons_of_mem _ hy)
      obtain ⟨v, hv⟩ := Option.isSome_iff_exists.1 hown.value
      obtain ⟨t, rfl⟩ := htext n n.mem_preorder v hv
      refine ⟨f₀, _, hf₀, ?_, ?_, fun _ => ⟨childFault (templateName n.tag mode)
        (wrapping n.tag).line c mode f, rfl⟩⟩
      · rw [eval_wrapping h htext hM hm, hjoined, text?, hv]
        rfl
      · exact hinner

end Node

/-! ### Rendering from a repository -/

/-- **A repository whose templates for a mode are wrappings.** The store finds a group for a tag or
does not, each tag that has the mode has a wrapping as its template, and a template on the shelf is
the one that the store would give. -/
structure Repository.Wraps (r : Repository) (s : Site) (mode : String)
    (wrapping : String → Wrapping) : Prop where
  plain : PlainName mode
  listed : ∀ tag, r.store.listed s.disk tag = .error (.templateNotFound tag) ∨
    ∃ ms, r.store.listed s.disk tag = .ok ms
  source : ∀ tag ms, r.store.listed s.disk tag = .ok ms → mode ∈ ms → (wrapping tag).Literal ∧
    r.store.held s.disk (templateName tag mode) = .ok (some ((wrapping tag).source mode))
  kept : ∀ name t, s.kept? r.shelf name = some t →
    Repository.compiled name (r.store.held s.disk name) = .ok t

section

variable {r : Repository} {s : Site} {mode : String} {wrapping : String → Wrapping}

theorem Repository.Wraps.answers (h : r.Wraps s mode wrapping) :
    Node.WrappingAnswers (r.answer s) (r.store.listed s.disk) mode wrapping := by
  refine ⟨h.listed, fun tag ms hlisted hmode => ?_⟩
  obtain ⟨hliteral, hheld⟩ := h.source tag ms hlisted hmode
  have hread := Wrapping.read_source hliteral h.plain.no_backslash (templateName tag mode)
  have hcompiled : r.answer s (templateName tag mode) =
      Repository.compiled (templateName tag mode) (r.store.held s.disk (templateName tag mode)) := by
    cases hkept : s.kept? r.shelf (templateName tag mode) with
    | none => rw [Repository.answer_of_missing hkept]
    | some t => rw [Repository.answer_of_kept hkept, h.kept _ t hkept]
  rw [hcompiled, hheld, Repository.compiled, hread]

theorem Store.listed_memory (st : MemoryStore) (d : Disk) (tag : String) :
    (Store.memory st).listed d tag = match st.modes? tag with
      | some ms => .ok ms
      | none => .error (.templateNotFound tag) := by
  change ((match st.modes? tag with
    | some ms => pure ms
    | none => Work.fail (.templateNotFound tag) : Work (List String)) (.on d)).1 = _
  cases st.modes? tag <;> rfl

theorem Store.listed_memory_cases (st : MemoryStore) (d : Disk) (tag : String) :
    (Store.memory st).listed d tag = .error (.templateNotFound tag) ∨
      ∃ ms, (Store.memory st).listed d tag = .ok ms := by
  rw [Store.listed_memory]
  cases st.modes? tag with
  | none => exact .inl rfl
  | some ms => exact .inr ⟨ms, rfl⟩

/-- There is a template for every mode that a store in memory lists. -/
theorem Store.exists_template_of_listed {st : MemoryStore} {d : Disk} {tag : String} {ms : List String}
    (hms : (Store.memory st).listed d tag = .ok ms) (hm : mode ∈ ms) :
    ∃ source, st.template? tag mode = some source := by
  rw [Store.listed_memory] at hms
  cases hx : st.modes? tag with
  | none => rw [hx] at hms; cases hms
  | some ms' =>
    rw [hx] at hms
    exact Option.isSome_iff_exists.1 (MemoryStore.mem_modes?.1 ⟨ms', hx, Except.ok.inj hms ▸ hm⟩)

theorem Store.held_memory (st : MemoryStore) (d : Disk) {tag source : String} (htag : '/' ∉ tag.toList)
    (h : st.template? tag mode = some source) :
    (Store.memory st).held d (templateName tag mode) = .ok (some source) := by
  have hheld : (Store.memory st).held d (templateName tag mode) =
      .ok (st.source? (templateName tag mode)) := rfl
  rw [hheld, MemoryStore.source?_append htag, h, Option.some_or]

/-- A store in memory whose templates for a mode are wrappings, with nothing on the shelf. -/
theorem Repository.wraps_memory {st : MemoryStore} {shelf : Nat}
    (hshelf : ∀ name, s.kept? shelf name = none) (hmode : PlainName mode)
    (h : ∀ tag source, st.template? tag mode = some source →
      '/' ∉ tag.toList ∧ (wrapping tag).Literal ∧ source = (wrapping tag).source mode) :
    (Repository.mk (.memory st) shelf).Wraps s mode wrapping := by
  refine ⟨hmode, Store.listed_memory_cases st s.disk, fun tag ms hms hm => ?_, fun name t ht => ?_⟩
  · obtain ⟨source, hsource⟩ := Store.exists_template_of_listed hms hm
    obtain ⟨htag, hliteral, rfl⟩ := h tag source hsource
    exact ⟨hliteral, Store.held_memory st s.disk htag hsource⟩
  · rw [hshelf] at ht
    cases ht

/-- **Rendering composes over the tree.** If the templates of a mode are wrappings and the values are
texts, a tree of complete nodes is rendered as every value and the children between the texts for the
tag, with nothing escaped. Otherwise rendering fails for the first node in pre-order that is not
complete: what that node lacks is what started the failure. Below the root it comes as a failure to
render the template of the root. -/
theorem Node.render_wrapped (h : r.Wraps s mode wrapping) (n : Node)
    (htext : ∀ x ∈ n.preorder, x.Textual) :
    ((∀ x ∈ n.preorder, x.Complete (r.store.listed s.disk) mode) →
      (n.render r mode s).1 = .ok (n.wrapped wrapping)) ∧
    ∀ before x after, n.preorder = before ++ x :: after →
      (∀ y ∈ before, y.Complete (r.store.listed s.disk) mode) →
      ¬ x.Complete (r.store.listed s.disk) mode →
      ∃ f₀ f, x.Lacks (r.store.listed s.disk) mode f₀ ∧ (n.render r mode s).1 = .error f ∧
        f.innermost = f₀ ∧
        (before ≠ [] → ∃ fault, f = .render (templateName n.tag mode) fault) := by
  rw [(n.render_apply r mode s).1]
  exact ⟨eval_complete h.answers n htext, fun before x after hn hbefore hx =>
    eval_first h.answers hx n before after htext hn hbefore⟩

end

/-! A store with templates for two tags, a tree that it renders, and one with a tag that has no
group. -/

namespace SampleWrapping

def letter : Wrapping := ⟨"[", "]"⟩

def word : Wrapping := ⟨"<b>", "\n</b>"⟩

def wrapping (tag : String) : Wrapping := if tag = "b" then word else letter

def repository : Repository :=
  ⟨.memory ((MemoryStore.empty.insert "a" "m" (letter.source "m")).insert "b" "m"
    (word.source "m")), 0⟩

def node (tag value : String) (children : List Node) (h : tag ≠ "") : Node :=
  .mk tag ⟨[(textName, .string value)], List.nodup_singleton _⟩ children h (by
    change ∀ k ∈ [textName], k ∉ reservedNames
    decide)

/-- A value may look like a part of a template. -/
def rendered : Node :=
  node "a" "x<&\x7b\x7b y \x7d\x7d" [node "b" "y" [] (by decide), node "a" "" [] (by decide)]
    (by decide)

def failing : Node :=
  node "a" "x" [node "b" "y" [] (by decide), node "c" "z" [] (by decide)] (by decide)

theorem wraps : repository.Wraps .empty "m" wrapping := by
  refine Repository.wraps_memory (fun _ => rfl) (isPlainSegment_iff.1 (by decide)) ?_
  intro tag source hsource
  rw [MemoryStore.template?_insert, MemoryStore.template?_insert] at hsource
  split_ifs at hsource with hb ha
  · obtain ⟨rfl, -⟩ := hb
    exact ⟨by decide, ⟨by decide, by decide, fun c hc => by cases hc; decide⟩, (Option.some.inj hsource).symm⟩
  · obtain ⟨rfl, -⟩ := ha
    exact ⟨by decide, ⟨by decide, by decide, fun c hc => by cases hc; decide⟩, (Option.some.inj hsource).symm⟩
  · cases hsource

theorem textual {tag value : String} {children : List Node} (h : tag ≠ "") :
    (node tag value children h).Textual := fun _ hv => ⟨value, (Option.some.inj hv).symm⟩

theorem complete {tag value : String} {children : List Node} (h : tag ≠ "")
    (htag : repository.store.listed Site.empty.disk tag = .ok ["m"]) :
    (node tag value children h).Complete (repository.store.listed Site.empty.disk) "m" :=
  ⟨⟨_, htag, List.mem_singleton_self _⟩, rfl⟩

end SampleWrapping

open SampleWrapping in
theorem Node.render_wrapped_sample :
    (rendered.render repository "m" .empty).1 =
        .ok "[x<&\x7b\x7b y \x7d\x7d<b>y\n</b>[]]" ∧
      ∃ f fault, (failing.render repository "m" .empty).1 = .error f ∧
        f.innermost = .templateNotFound "c" ∧ f = .render "a/m.jinja" fault := by
  constructor
  · have hnodes : rendered.preorder = [_, _, _] := rfl
    have htext : ∀ x ∈ rendered.preorder, x.Textual := by
      rw [hnodes]
      simp only [List.forall_mem_cons]
      exact ⟨textual _, textual _, textual _, fun _ h => absurd h List.not_mem_nil⟩
    refine ((render_wrapped wraps rendered htext).1 ?_).trans ?_
    · rw [hnodes]
      simp only [List.forall_mem_cons]
      exact ⟨complete _ rfl, complete _ rfl, complete _ rfl, fun _ h => absurd h List.not_mem_nil⟩
    · exact congrArg Except.ok (by decide +kernel)
  · have htext : ∀ x ∈ failing.preorder, x.Textual := by
      have hnodes : failing.preorder = [_, _, _] := rfl
      rw [hnodes]
      simp only [List.forall_mem_cons]
      exact ⟨textual _, textual _, textual _, fun _ h => absurd h List.not_mem_nil⟩
    have hmissing : repository.store.listed Site.empty.disk "c" = .error (.templateNotFound "c") := rfl
    obtain ⟨f₀, f, hlacks, hf, hinner, hroot⟩ := (render_wrapped wraps failing htext).2
      [failing, node "b" "y" [] (by decide)] (node "c" "z" [] (by decide)) [] rfl
      (by
        simp only [List.forall_mem_cons]
        exact ⟨complete _ rfl, complete _ rfl, fun _ h => absurd h List.not_mem_nil⟩)
      (fun hcomplete => by
        obtain ⟨⟨ms, hms, -⟩, -⟩ := hcomplete
        exact absurd (hmissing.symm.trans hms) (by simp))
    obtain ⟨fault, hfault⟩ := hroot (by simp)
    refine ⟨f, fault, hf, ?_, hfault⟩
    rw [hinner]
    cases hlacks with
    | group _ => rfl
    | mode hms _ => exact absurd (hmissing.symm.trans hms) (by simp)
    | value _ hms _ => exact absurd (hmissing.symm.trans hms) (by simp)

namespace SampleWrapping

def returning : Wrapping := ⟨"[", "]\r"⟩

def returningStore : MemoryStore := MemoryStore.empty.insert "a" "m" (returning.source "m")

/-- A carriage return at the end of a template does not belong to it. -/
theorem read_returning : Template.read "a/m.jinja" (returning.source "m") =
    .ok ⟨"a/m.jinja", letter.statements "m"⟩ := by
  have hscan : scan (returning.source "m") = scan (letter.source "m") := by
    have hstripped : withoutLastLineEnd (returning.source "m").toList =
        withoutLastLineEnd (letter.source "m").toList := by decide +kernel
    rw [scan, hstripped, scan]
  have hread : Template.read "a/m.jinja" (returning.source "m") =
      Template.read "a/m.jinja" (letter.source "m") := by
    rw [Template.read, Template.read, hscan]
  exact hread.trans (Wrapping.read_source ⟨by decide, by decide, fun c hc => by cases hc; decide⟩
    (by decide) _)

theorem answers_returning : Node.WrappingAnswers
    (Repository.answer ⟨.memory returningStore, 0⟩ .empty)
    ((Store.memory returningStore).listed Site.empty.disk) "m" fun _ => letter := by
  refine ⟨Store.listed_memory_cases _ _, fun tag ms hms hm => ?_⟩
  obtain ⟨source, hsource⟩ := Store.exists_template_of_listed hms hm
  rw [returningStore, MemoryStore.template?_insert] at hsource
  split_ifs at hsource with ha
  · obtain ⟨rfl, -⟩ := ha
    exact read_returning
  · cases hsource

/-- **A carriage return at the end of the second text is lost.** -/
theorem return_dropped :
    let n := node "a" "x" [] (by decide)
    ('\x7b' ∉ returning.before.toList ∧ '\x7b' ∉ returning.after.toList ∧
        returning.after.toList.getLast? ≠ some '\n') ∧
      returningStore.template? "a" "m" = some (returning.source "m") ∧
      n.Complete ((Store.memory returningStore).listed Site.empty.disk) "m" ∧
      (n.render ⟨.memory returningStore, 0⟩ "m" .empty).1 = .ok "[x]" ∧
      n.wrapped (fun _ => returning) = "[x]\r" := by
  intro n
  have hcomplete : n.Complete ((Store.memory returningStore).listed Site.empty.disk) "m" :=
    ⟨⟨["m"], rfl, List.mem_singleton_self _⟩, rfl⟩
  refine ⟨by decide, rfl, hcomplete, ?_, by decide +kernel⟩
  have hnodes : n.preorder = [n] := rfl
  rw [(n.render_apply _ _ _).1]
  refine (Node.eval_complete answers_returning n ?_ ?_).trans (congrArg Except.ok ?_)
  · rw [hnodes]
    exact fun x hx => List.mem_singleton.1 hx ▸ textual _
  · rw [hnodes]
    exact fun x hx => List.mem_singleton.1 hx ▸ hcomplete
  · decide +kernel

end SampleWrapping

end Scaffold
