import Mathlib.Logic.Relation
import Scaffold.Proofs.Template.Rendered

/-!
# The failure that started it

A failure may stand in stages, and one in a template may be caused by another failure, in a child
that the template rendered. A step from a failure to the one that caused it (`Failure.CausedBy`)
looks through all stages and all faults between the two, and makes the failure smaller. So every
failure leads to one without a cause, and this is what `innermost` finds (`innermost_spec`). All the
laws of causes follow from that (`Failure.laws_of_causes`).
-/

namespace Scaffold

open Relation

namespace RenderFault

/-- **The first failure among the causes of a fault**, after any number of other faults. -/
inductive StartedBy : RenderFault → Failure → Prop
  | failure (k : FaultKind) (d : Option String) (p : Option (String × Nat)) (g : Failure) :
    StartedBy (.mk k d p (.failure g)) g
  | fault (k : FaultKind) (d : Option String) (p : Option (String × Nat)) {r : RenderFault}
    {g : Failure} (h : StartedBy r g) : StartedBy (.mk k d p (.fault r)) g

variable {k k' : FaultKind} {d d' : Option String} {p p' : Option (String × Nat)} {r : RenderFault}
  {f g : Failure}

@[simp] theorem not_startedBy_none : ¬ (mk k d p .none).StartedBy g := by
  rintro ⟨⟩

@[simp] theorem startedBy_failure : (mk k d p (.failure f)).StartedBy g ↔ g = f :=
  ⟨fun h => by cases h; rfl, fun h => h ▸ .failure k d p g⟩

@[simp] theorem startedBy_fault : (mk k d p (.fault r)).StartedBy g ↔ r.StartedBy g :=
  ⟨fun h => by cases h; assumption, .fault k d p⟩

/-- Only the causes count, and neither the kind of the fault, nor its detail, nor its place. -/
theorem startedBy_congr {c : Cause} : (mk k d p c).StartedBy g ↔ (mk k' d' p' c).StartedBy g := by
  cases c with
  | none => simp only [not_startedBy_none]
  | failure f => simp only [startedBy_failure]
  | fault r => simp only [startedBy_fault]

theorem startedBy_placed {name : String} {line : Nat} :
    (r.placed name line).StartedBy g ↔ r.StartedBy g := by
  obtain ⟨k, d, p, c⟩ := r
  cases p with
  | some p => rfl
  | none => exact startedBy_congr

theorem StartedBy.sizeOf_lt (h : r.StartedBy g) : sizeOf g < sizeOf r := by
  induction h with
  | failure k d p g => simp only [mk.sizeOf_spec, Cause.failure.sizeOf_spec]; omega
  | fault k d p h ih => simp only [mk.sizeOf_spec, Cause.fault.sizeOf_spec]; omega

end RenderFault

namespace Failure

variable {e f g : Failure}

/-- What is found behind a fault is what started the first failure among its causes. -/
theorem ofFault_eq_some : ∀ {r : RenderFault},
    ofFault r = some f ↔ ∃ g, r.StartedBy g ∧ f = g.innermost
  | .mk k d p .none => by simp [ofFault, ofCause]
  | .mk k d p (.failure g) => by simp [ofFault, ofCause, eq_comm]
  | .mk k d p (.fault r) => by
    simp only [ofFault, ofCause, RenderFault.startedBy_fault]
    exact ofFault_eq_some (r := r)

/-! ### Stages -/

/-- The failure as the stages add themselves to it, one after the other. -/
def through (e : Failure) (stages : List Stage) : Failure := stages.foldl (fun f s => f.at s) e

theorem stage?_rootCause : ∀ e : Failure, e.rootCause.stage? = none
  | .staged _ e => stage?_rootCause e
  | .io _ | .parse _ | .templateNotFound _ | .invalidMode .. | .render .. | .specificationNotFound _
  | .specification _ | .conflict .. | .ioFailure .. | .validation _ | .config _ => rfl

theorem rootCause_of_stage? (h : e.stage? = none) : e.rootCause = e := by
  cases e with
  | staged s e => cases h
  | _ => rfl

@[simp] theorem rootCause_rootCause : e.rootCause.rootCause = e.rootCause :=
  rootCause_of_stage? (stage?_rootCause e)

@[simp] theorem rootCause_through (stages : List Stage) :
    (e.through stages).rootCause = e.rootCause := by
  induction stages generalizing e with
  | nil => rfl
  | cons s stages ih => exact ih

theorem innermost_rootCause : ∀ e : Failure, e.rootCause.innermost = e.innermost
  | .staged _ e => by rw [rootCause, innermost, innermost_rootCause e]
  | .io _ | .parse _ | .templateNotFound _ | .invalidMode .. | .render .. | .specificationNotFound _
  | .specification _ | .conflict .. | .ioFailure .. | .validation _ | .config _ => rfl

theorem innermost_eq_of_rootCause (h : e.rootCause = f.rootCause) : e.innermost = f.innermost := by
  rw [← innermost_rootCause, h, innermost_rootCause]

theorem sizeOf_rootCause_le : ∀ e : Failure, sizeOf e.rootCause ≤ sizeOf e
  | .staged _ e => by
    have := sizeOf_rootCause_le e
    rw [rootCause, staged.sizeOf_spec]
    omega
  | .io _ | .parse _ | .templateNotFound _ | .invalidMode .. | .render .. | .specificationNotFound _
  | .specification _ | .conflict .. | .ioFailure .. | .validation _ | .config _ => le_rfl

/-! ### Causes -/

/-- **One failure caused by another**: inside its stages it is one in a template, whose fault the
other started. -/
def CausedBy (e g : Failure) : Prop := ∃ t r, e.rootCause = .render t r ∧ r.StartedBy g

theorem CausedBy.sizeOf_lt (h : e.CausedBy g) : sizeOf g < sizeOf e := by
  obtain ⟨t, r, he, hr⟩ := h
  have hroot := he ▸ sizeOf_rootCause_le e
  have hlt := hr.sizeOf_lt
  rw [render.sizeOf_spec] at hroot
  omega

theorem innermost_render (t : String) (r : RenderFault) :
    (Failure.render t r).innermost = (ofFault r).getD (.render t r) := by
  rw [innermost]

theorem CausedBy.innermost_eq (h : e.CausedBy g) : e.innermost = g.innermost := by
  obtain ⟨t, r, he, hr⟩ := h
  rw [← innermost_rootCause, he, innermost_render, ofFault_eq_some.2 ⟨g, hr, rfl⟩, Option.getD_some]

theorem innermost_of_uncaused (h : ∀ g, ¬ e.CausedBy g) : e.innermost = e.rootCause := by
  rw [← innermost_rootCause]
  cases hroot : e.rootCause with
  | staged s f => exact absurd (hroot ▸ stage?_rootCause e) (by simp [stage?])
  | render t r =>
    have hnone : ofFault r = none := by
      cases hr : ofFault r with
      | none => rfl
      | some f =>
        obtain ⟨g, hg, -⟩ := ofFault_eq_some.1 hr
        exact absurd ⟨t, r, hroot, hg⟩ (h g)
    rw [innermost_render, hnone, Option.getD_none]
  | _ => rfl

/-- **What `innermost` finds**: the causes lead to a failure that has none, and this, inside its
stages, is found. -/
theorem innermost_spec (e : Failure) :
    ∃ f, ReflTransGen CausedBy e f ∧ (∀ g, ¬ f.CausedBy g) ∧ e.innermost = f.rootCause := by
  -- by the size of the failure, which every cause makes smaller
  induction hsize : sizeOf e using Nat.strongRecOn generalizing e with
  | ind n ih =>
    subst hsize
    by_cases h : ∃ g, e.CausedBy g
    · obtain ⟨g, hg⟩ := h
      obtain ⟨f, hreach, hnone, heq⟩ := ih _ hg.sizeOf_lt g rfl
      exact ⟨f, .head hg hreach, hnone, hg.innermost_eq.trans heq⟩
    · rw [not_exists] at h
      exact ⟨e, .refl, h, innermost_of_uncaused h⟩

/-- Failures along a chain of causes were started by the same failure. -/
theorem innermost_eq_of_causes (h : ReflTransGen CausedBy e g) : e.innermost = g.innermost := by
  induction h with
  | refl => rfl
  | tail _ hcause ih => exact ih.trans hcause.innermost_eq

theorem stage?_innermost (e : Failure) : e.innermost.stage? = none := by
  obtain ⟨f, -, -, heq⟩ := innermost_spec e
  rw [heq]
  exact stage?_rootCause f

theorem innermost_innermost (e : Failure) : e.innermost.innermost = e.innermost := by
  obtain ⟨f, -, hnone, heq⟩ := innermost_spec e
  rw [heq, innermost_rootCause, innermost_of_uncaused hnone]

end Failure

/-! ### Children -/

namespace Template

open Run

/-- A template that renders a child which fails has a fault, and the child's failure started it. -/
theorem result_call_render_of_error {A : String → Except RenderFault Template}
    {M : String → Except Failure (List String)} {K : Kept} {s : Machine} {low : Lower}
    {home mode : String} {c : Node} {f : Failure} (h : (low.child c mode).eval A M K = .error f) :
    ∃ r, ((Callee.method (.node c) "render").call low home [.ofText mode]).result A M K s =
      (.error r, s) ∧ ∀ line g, (r.placed home line).StartedBy g ↔ g = f := by
  refine ⟨_, by rw [Wrapping.result_call_render, h], fun line g => ?_⟩
  rw [RenderFault.startedBy_placed, RenderFault.causedBy, RenderFault.startedBy_failure]

end Template

namespace Failure

/-- **The laws of causes.** Inside its stages a failure is no stage, whatever stages are added to
it. The failure that started it is no stage and was itself started by no other, and stages that are
added change nothing. A failure in a template was started by what started the first failure among
the causes of its fault; any other failure started itself. So along every chain of causes the same
failure is found, and a child that fails in a template is the next in such a chain. -/
theorem laws_of_causes (e : Failure) :
    (e.rootCause.stage? = none ∧ ∀ stages, (e.through stages).rootCause = e.rootCause) ∧
      (e.innermost.stage? = none ∧ e.innermost.innermost = e.innermost ∧
        ∀ stages, (e.through stages).innermost = e.innermost) ∧
      (∀ t r g, e.rootCause = .render t r → r.StartedBy g → e.innermost = g.innermost) ∧
      ((∀ t r, e.rootCause = .render t r → ∀ g, ¬ r.StartedBy g) → e.innermost = e.rootCause) ∧
      (∀ g, ReflTransGen CausedBy e g → e.innermost = g.innermost) ∧
      ∀ (A : String → Except RenderFault Template) (M : String → Except Failure (List String))
        (K : Kept) (s : Template.Machine) (low : Template.Lower) (home mode : String) (c : Node),
        (low.child c mode).eval A M K = .error e →
          ∃ r, ((Template.Callee.method (.node c) "render").call low home
              [.ofText mode]).result A M K s = (.error r, s) ∧
            ∀ line, (Failure.render home (r.placed home line)).CausedBy e ∧
              (Failure.render home (r.placed home line)).innermost = e.innermost := by
  refine ⟨⟨stage?_rootCause e, fun _ => rootCause_through _⟩, ⟨stage?_innermost e,
    innermost_innermost e, fun _ => innermost_eq_of_rootCause (rootCause_through _)⟩,
    fun t r g he hr => CausedBy.innermost_eq ⟨t, r, he, hr⟩, fun h => ?_,
    fun g => innermost_eq_of_causes, fun A M K s low home mode c hchild => ?_⟩
  · exact innermost_of_uncaused fun g ⟨t, r, he, hr⟩ => h t r he g hr
  · obtain ⟨r, hr, hstarted⟩ := Template.result_call_render_of_error hchild
    refine ⟨r, hr, fun line => ?_⟩
    have hcause : (Failure.render home (r.placed home line)).CausedBy e :=
      ⟨home, _, rfl, (hstarted line e).2 rfl⟩
    exact ⟨hcause, hcause.innermost_eq⟩

end Failure

namespace SampleCauses

/-- A node without the mode in which it is asked for. -/
def figure : Node :=
  .mk "figure" ⟨[("source", .string "plan")], by decide⟩ [] (by decide) (by decide)

def missing : Failure := .invalidMode "figure" "css" ["html"]

/-- The page asks for the figure in a template that it includes. -/
def page : Failure := .render "page/css.jinja" (.mk .badInclude none (some ("page/css.jinja", 2))
  (.fault (.mk .invalidOperation (some "cannot render <figure> as 'css'")
    (some ("page/part.jinja", 1)) (.failure missing))))

/-- The list asks for the page, in two stages. -/
def list : Failure := .staged .build (.staged .compile (.render "list/deep.jinja"
  (.mk .invalidOperation (some "cannot render <page> as 'css'") (some ("list/deep.jinja", 1))
    (.failure (page.at .write)))))

theorem causedBy_list : list.CausedBy (page.at .write) := ⟨_, _, rfl, .failure ..⟩

theorem causedBy_page : (page.at .write).CausedBy missing :=
  ⟨_, _, rfl, .fault _ _ _ (.failure ..)⟩

end SampleCauses

open SampleCauses in
theorem Failure.laws_of_causes_sample :
    list.innermost = missing.innermost ∧ missing.innermost = missing.rootCause ∧
      (page.at .write).innermost = missing.innermost ∧ (list.through [.write, .parse]).innermost =
        list.innermost ∧
      ∃ r : RenderFault, (Failure.render "page/part.jinja" (r.placed "page/part.jinja" 1)).innermost =
        missing.innermost := by
  refine ⟨(laws_of_causes list).2.2.2.2.1 _ (.head causedBy_list (.single causedBy_page)),
    (laws_of_causes missing).2.2.2.1 (fun t r h => by cases h), ?_,
    (laws_of_causes list).2.1.2.2 _, ?_⟩
  · exact (laws_of_causes (page.at .write)).2.2.1 _ _ _ rfl (.fault _ _ _ (.failure ..))
  · have hfigure : (figure.rendering "css").eval (fun _ => .error default)
        (fun _ => .ok ["html"]) none = .error missing := by
      rw [Node.eval_rendering]
      rfl
    obtain ⟨r, -, hr⟩ := (laws_of_causes missing).2.2.2.2.2 _ _ _ (.start default default)
      (Template.lower Node.rendering 0) "page/part.jinja" "css" figure hfigure
    exact ⟨r, (hr 1).2⟩

end Scaffold
