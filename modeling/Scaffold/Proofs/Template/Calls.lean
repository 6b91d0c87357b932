import Scaffold.Proofs.Template.Filters
import Scaffold.Template.Call

/-!
# Loops, blocks and calls on lower nodes

What lies below two evaluations is alike if it does the same within a height, and renders the nodes
that are lower in the same way (`Lower.Alike`). Then loops, blocks, includes and calls are alike as
well: a node is rendered only through a value that holds it (`alike_renderChild`).
-/

namespace Scaffold.Template

open Run (Confined)

variable {k : Nat} {low low' : Lower} {home : String} {v w : Value} {vs : List Value}

/-- **What lies below does the same** on machines within the height, and with lower nodes. -/
structure Lower.Alike (k : Nat) (low low' : Lower) : Prop where
  eval : ∀ home e, Run.Alike k (Value.Within k) (low.eval home e) (low'.eval home e)
  statements : ∀ home body,
    Run.Alike k (fun _ => True) (low.statements home body) (low'.statements home body)
  body : ∀ home body, Run.Alike k (fun _ => True) (low.body home body) (low'.body home body)
  again : ∀ home r v, v.Within k →
    Run.Alike k (fun _ => True) (low.again home r v) (low'.again home r v)
  child : ∀ c mode, c.height < k → low.child c mode = low'.child c mode

/-! ### Assignments and loops -/

mutual

theorem confined_assign : ∀ (t : Target) (v : Value), v.Within k →
    Confined k (fun _ => True) (t.assign home v)
  | .name n, v, hv => by
    rw [Target.assign]
    exact Confined.assign hv
  | .parts l ts, v, hv => by
    rw [Target.assign]
    refine Confined.heap.bind fun h _ => ?_
    cases hvs : v.parts? h with
    | none => exact .blaming _ _ (.throw _)
    | some vs =>
      refine .ite (fun _ => confined_assignParts ts vs (hv.parts? hvs)) fun _ => ?_
      exact .blaming _ _ (.throw _)
  | .field l root path name, v, hv => by
    rw [Target.assign]
    refine .blaming _ _ ((Confined.lookup root).bind fun owner howner => ?_)
    refine .bind (.foldlM howner fun u hu n _ => Confined.attributeOf hu) fun owner _ => ?_
    cases owner with
    | space n =>
      refine Confined.heap.bind fun h hh => ?_
      have hfields : (Cell.fields (Entries.put name v (h.fields n))).Within k :=
        (hh.fields n).put hv
      exact Confined.setCell hfields n
    | _ => exact .throw _

theorem confined_assignParts : ∀ (ts : List Target) (vs : List Value), (∀ v ∈ vs, v.Within k) →
    Confined k (fun _ => True) (assignParts home ts vs)
  | [], _, _ => .pure trivial
  | _ :: _, [], _ => .pure trivial
  | t :: ts, v :: vs, hvs => by
    obtain ⟨hv, hvs⟩ := List.forall_mem_cons.1 hvs
    rw [assignParts]
    exact (confined_assign t v hv).bind fun _ _ => confined_assignParts ts vs hvs

end

theorem confined_currentLoop? : Confined k (fun _ => True) currentLoop? :=
  Confined.get.bind fun _ _ => .pure trivial

theorem confined_loopDepth : Confined k (fun _ => True) loopDepth := by
  refine confined_currentLoop?.bind fun l? _ => ?_
  cases l? with
  | none => exact .pure trivial
  | some l => exact Confined.heap.bind fun _ _ => .pure trivial

theorem alike_rounds {each each' : Value → Run Signal} {cell : Nat} {previous : Option Value}
    {index : Nat} (heach : ∀ v, v.Within k → Run.Alike k (fun _ => True) (each v) (each' v))
    (hprevious : ∀ v, previous = some v → v.Within k) (hvs : ∀ v ∈ vs, v.Within k) :
    Run.Alike k (fun _ => True) (rounds cell each previous index vs)
      (rounds cell each' previous index vs) := by
  induction vs generalizing previous index with
  | nil => exact Run.Alike.pure trivial
  | cons v r ih =>
    obtain ⟨hv, hr⟩ := List.forall_mem_cons.1 hvs
    refine Confined.heap.bind fun h hh => ?_
    have hnow : (Cell.running { h.running cell with
        index := index, previous := previous, following := r.head? }).Within k :=
      ⟨hprevious, fun u hu => hr u (List.mem_of_head? hu), (hh.running cell).changed⟩
    refine .bind (Confined.setCell hnow cell) fun _ _ => (heach v hv).bind fun signal _ => ?_
    have hrest : Run.Alike k (fun _ => True) (rounds cell each (some v) (index + 1) r)
        (rounds cell each' (some v) (index + 1) r) := ih (fun u hu => by cases hu; exact hv) hr
    cases signal with
    | leave => exact Run.Alike.pure trivial
    | on => exact hrest
    | skip => exact hrest

/-- A loop that has not begun to go through its items. -/
theorem within_running (n depth : Nat) :
    (Cell.running ⟨0, n, depth, none, none, none⟩).Within k := ⟨nofun, nofun, nofun⟩

theorem alike_runLoop {body body' : Run Signal} {target : Target} {repetition : Option Repetition}
    (hbody : Run.Alike k (fun _ => True) body body') (hvs : ∀ v ∈ vs, v.Within k) :
    Run.Alike k (fun _ => True) (runLoop home target repetition body vs)
      (runLoop home target repetition body' vs) := by
  refine confined_loopDepth.bind fun depth _ => ?_
  refine .bind (Confined.newCell (within_running _ _)) fun cell _ => ?_
  refine Run.Alike.inFrame ⟨trivial, by simp [EntriesWithin, Frame.on]⟩ ?_
  exact alike_rounds (fun v hv => (confined_assign target v hv).bind fun _ _ => hbody) (by simp) hvs

theorem alike_selected {condition condition' : Run Bool} {target : Target}
    (hcondition : Run.Alike k (fun _ => True) condition condition') (hvs : ∀ v ∈ vs, v.Within k) :
    Run.Alike k (fun ws => ∀ w ∈ ws, w.Within k) (selected home target condition vs)
      (selected home target condition' vs) := by
  refine .bind (Confined.newCell (within_running _ _)) fun cell _ => ?_
  refine Run.Alike.inFrame ⟨trivial, by simp [EntriesWithin, Frame.on]⟩ ?_
  refine .imp (.filterM fun v hv => ?_) fun ws hws w hw => hvs w (hws w hw)
  exact (confined_assign target v (hvs v hv)).bind fun _ _ => hcondition

theorem alike_recurse (hlow : low.Alike k low') (hv : v.Within k) :
    Run.Alike k (fun _ => True) (recurse low home v) (recurse low' home v) := by
  refine confined_currentLoop?.bind fun l? _ => ?_
  cases l? with
  | none => exact Run.Alike.throw _
  | some l =>
    dsimp only
    cases l.repetition with
    | none => exact Run.Alike.throw _
    | some r => exact hlow.again home r v hv

/-! ### Blocks and other templates -/

theorem alike_callBlock (hlow : low.Alike k low') (name : String) :
    Run.Alike k (fun _ => True) (callBlock low name) (callBlock low' name) := by
  refine Confined.get.bind fun s hs => ?_
  cases s.blocks.lookup name with
  | none => exact Run.Alike.throw _
  | some b =>
    refine .bind (Confined.set ⟨hs.heap, hs.frames⟩) fun _ _ => ?_
    refine .bind (.inFrame Frame.within_nothing (hlow.body _ _)) fun _ _ => ?_
    exact Confined.modify fun t ht => ⟨ht.heap, ht.frames⟩

theorem alike_showBlock (hlow : low.Alike k low') (name : String) :
    Run.Alike k (fun _ => True) (showBlock low name) (showBlock low' name) :=
  Confined.get.bind fun _ _ => .ite (fun _ => alike_callBlock hlow name) fun _ => .pure trivial

theorem confined_setLevel (name : String) (level : Nat) :
    Confined k (fun _ => True) (setLevel name level) :=
  Confined.modify fun _ hs => ⟨hs.heap, hs.frames⟩

theorem alike_callSuper (hlow : low.Alike k low') :
    Run.Alike k (fun _ => True) (callSuper low) (callSuper low') := by
  refine Confined.get.bind fun s _ => ?_
  cases s.block with
  | none => exact Run.Alike.throw _
  | some name =>
    dsimp only
    cases ((s.blocks.lookup name).getD default).versions[
        ((s.blocks.lookup name).getD default).level + 1]? with
    | none => exact Run.Alike.throw _
    | some p =>
      refine (confined_setLevel _ _).bind fun _ _ => ?_
      refine .bind (.tryCatch (.inFrame Frame.within_nothing (hlow.body _ _)) fun _ => .throw _) ?_
      exact fun _ _ => confined_setLevel _ _

theorem confined_template (name : String) : Confined k (fun _ => True) (template name) :=
  (Confined.ask _).bind fun _ _ => Confined.ofExcept fun _ _ => trivial

theorem confined_inheritFrom (v : Value) : Confined k (fun _ => True) (inheritFrom v) := by
  refine Confined.get.bind fun s _ => .ite (fun _ => .throw_bind _) fun _ => ?_
  cases v with
  | text name safe =>
    refine .ite (fun _ => .throw_bind _) fun _ => (confined_template name).bind fun t _ => ?_
    exact Confined.modify fun u hu => ⟨hu.heap, hu.frames⟩
  | _ => exact .throw _

theorem alike_includeTemplate (hlow : low.Alike k low') (t : Template) :
    Run.Alike k (fun _ => True) (includeTemplate low t) (includeTemplate low' t) := by
  refine Confined.get.bind fun s hs => .bind (Confined.set ⟨hs.heap, hs.frames⟩) fun _ _ => ?_
  refine Confined.checkDepth.bind fun _ _ => ?_
  refine .bind (.tryCatch (hlow.body _ _) fun _ => .throw _) fun _ _ => ?_
  exact Confined.modify fun u hu => ⟨hu.heap, hu.frames⟩

theorem alike_includeFirst (hlow : low.Alike k low') (ignoreMissing : Bool) (vs : List Value) :
    ∀ tried, Run.Alike k (fun _ => True) (includeFirst low ignoreMissing tried vs)
      (includeFirst low' ignoreMissing tried vs) := by
  induction vs with
  | nil =>
    refine fun tried => .ite (fun _ => Confined.heap.bind fun _ _ => .throw _) fun _ => .pure trivial
  | cons v r ih =>
    intro tried
    cases v with
    | text name safe =>
      refine (Confined.ask _).bind fun found _ => ?_
      cases found with
      | ok t => exact alike_includeTemplate hlow t
      | error f => exact .ite (fun _ => ih _) fun _ => .throw _
    | _ => exact .throw _

theorem alike_includeAny (hlow : low.Alike k low') (ignoreMissing : Bool) (v : Value) :
    Run.Alike k (fun _ => True) (includeAny low ignoreMissing v) (includeAny low' ignoreMissing v) :=
  Confined.heap.bind fun _ _ => alike_includeFirst hlow ignoreMissing _ _

/-! ### Calls -/

theorem confined_bindParameters {os : Options} (hos : EntriesWithin k os) (ps : List String) :
    ∀ vs : List Value, (∀ v ∈ vs, v.Within k) →
      Confined k (EntriesWithin k) (bindParameters os ps vs) := by
  induction ps with
  | nil => exact fun _ _ => .pure (by simp [EntriesWithin])
  | cons p ps ih =>
    intro vs hvs
    have hrest : ∀ v : Value, v.Within k → Confined k (EntriesWithin k) (do
        pure ((p, v) :: (← bindParameters os ps vs.tail))) := fun v hv =>
      (ih vs.tail fun w hw => hvs w (List.mem_of_mem_tail hw)).bind fun es hes =>
        .pure (List.forall_mem_cons.2 ⟨hv, hes⟩)
    rw [bindParameters]
    cases hhead : vs.head? with
    | none =>
      cases hv : os.lookup p with
      | none => exact .bind (.pure (Value.within_undefined _)) hrest
      | some v => exact .bind (.pure (hos.lookup hv)) hrest
    | some v =>
      cases os.lookup p with
      | none => exact .bind (.pure (hvs v (List.mem_of_head? hhead))) hrest
      | some w => exact .throw_bind _

theorem alike_apart {x y : Run Unit} {f : Frame} (hf : f.Within k)
    (hxy : Run.Alike k (fun _ => True) x y) :
    Run.Alike k (Value.Within k) (apart f x) (apart f y) := by
  refine Confined.get.bind fun s hs => ?_
  refine .bind (Confined.set ⟨hs.heap, by simpa using hf⟩) fun _ _ => ?_
  refine Confined.checkDepth.bind fun _ _ => hxy.bind fun _ _ => Confined.get.bind fun t _ => ?_
  refine .bind (Confined.modify fun u hu => ⟨hu.heap, hs.frames⟩) fun _ _ => ?_
  exact Confined.textValue _

theorem alike_assignParameters (hlow : low.Alike k low') {bound : List (String × Value)}
    (hbound : EntriesWithin k bound) (ps : List (String × Option Expression)) :
    Run.Alike k (fun _ => True) (assignParameters low home bound ps)
      (assignParameters low' home bound ps) := by
  induction ps with
  | nil => exact .pure trivial
  | cons p r ih =>
    obtain ⟨p, d⟩ := p
    have hrest : ∀ v : Value, v.Within k → Run.Alike k (fun _ => True)
        (do Run.assign p v; assignParameters low home bound r)
        (do Run.assign p v; assignParameters low' home bound r) := fun v hv =>
      (Confined.assign hv).bind fun _ _ => ih
    unfold assignParameters
    dsimp only
    split
    · exact (hlow.eval home _).bind hrest
    · exact .bind (.pure (hbound.getD_lookup p)) hrest

theorem alike_callMacro (hlow : low.Alike k low') (m : Macro) (closure : Nat) (takesCaller : Bool)
    (hvs : ∀ v ∈ vs, v.Within k) :
    Run.Alike k (Value.Within k) (callMacro low home m closure takesCaller vs)
      (callMacro low' home m closure takesCaller vs) := by
  refine .bind (Taking.Confined.options vs hvs) fun p hp => ?_
  obtain ⟨os, vs⟩ := p
  refine .ite (fun _ => .throw_bind _) fun _ => ?_
  refine (confined_bindParameters hp.1 _ vs hp.2).bind fun bound hbound => ?_
  dsimp only
  split
  · exact .throw _
  · refine alike_apart ⟨trivial, by simp [EntriesWithin, Frame.on]⟩ ?_
    have hbody : Run.Alike k (fun _ => True)
        (do assignParameters low home bound m.reversedParameters; low.statements home m.body)
        (do assignParameters low' home bound m.reversedParameters; low'.statements home m.body) :=
      (alike_assignParameters hlow hbound _).bind fun _ _ => hlow.statements home m.body
    have hcaller := hp.1.getD_lookup "caller"
    exact .ite (fun _ => (Confined.assign hcaller).bind fun _ _ => hbody) fun _ => hbody

theorem alike_callValue (hlow : low.Alike k low') (v : Value) (hvs : ∀ v ∈ vs, v.Within k) :
    Run.Alike k (Value.Within k) (callValue low v vs) (callValue low' v vs) := by
  unfold callValue
  split
  · exact Builtin.confined_call _ hvs
  · exact alike_callMacro hlow _ _ _ hvs
  · exact .throw _
  · split <;> exact .throw _

/-- **A lower node is rendered in the same way.** -/
theorem alike_renderChild (hlow : low.Alike k low') {n : Node} (hn : n.height < k)
    (hvs : ∀ v ∈ vs, v.Within k) :
    Run.Alike k (Value.Within k) (renderChild low n vs) (renderChild low' n vs) := by
  have hmode : Taking.Confined k (fun _ => True) (do
      let mode ← Form.string (← Taking.value)
      Taking.finish
      pure mode) :=
    Taking.Confined.value.bind fun v _ => .bind (.lift (Form.confined_string v)) fun _ _ =>
      Taking.Confined.finish.bind fun _ _ => .pure trivial
  refine (hmode.run' hvs).bind fun mode _ => ?_
  rw [hlow.child n mode hn]
  exact (Confined.askOr _ _).bind fun _ _ => .pure (Value.within_text _ _)

theorem confined_childModes (n : Node) : Confined k (Value.Within k) (childModes n vs) := by
  refine .ite (fun _ => .throw_bind _) fun _ => (Confined.askOr _ _).bind fun ms _ => .pure ?_
  exact Value.within_list.2 (List.forall_mem_map.2 fun _ _ => Value.within_ofText _)

theorem confined_loopChanged (cell : Nat) (hvs : ∀ v ∈ vs, v.Within k) :
    Confined k (Value.Within k) (loopChanged cell vs) := by
  refine Confined.heap.bind fun h hh => ?_
  refine .ite (fun _ => .pure (Value.within_bool _)) fun _ => ?_
  have hr := hh.running cell
  have hcell : (Cell.running { h.running cell with changed := some vs }).Within k :=
    ⟨hr.previous, hr.following, fun ws hws => by cases hws; exact hvs⟩
  exact (Confined.setCell hcell cell).bind fun _ _ => .pure (Value.within_bool _)

theorem confined_loopCycle (cell : Nat) (hvs : ∀ v ∈ vs, v.Within k) :
    Confined k (Value.Within k) (loopCycle cell vs) := by
  refine Confined.heap.bind fun h _ => .pure ?_
  exact Value.within_getD (fun v hv => hvs v (List.mem_of_getElem? hv)) (Value.within_undefined _)

theorem alike_callAttribute (hlow : low.Alike k low') (v : Value) (name : String)
    (hvs : ∀ v ∈ vs, v.Within k) :
    Run.Alike k (Value.Within k) (callAttribute low v name vs) (callAttribute low' v name vs) := by
  refine Confined.heap.bind fun h _ => ?_
  cases v.attribute? h name with
  | some f => exact alike_callValue hlow f hvs
  | none => cases v <;> exact .throw _

theorem alike_callMethod (hlow : low.Alike k low') (hv : v.Within k) (name : String)
    (hvs : ∀ v ∈ vs, v.Within k) :
    Run.Alike k (Value.Within k) (callMethod low v name vs) (callMethod low' v name vs) := by
  unfold callMethod
  split
  · exact alike_renderChild hlow (Value.within_node.1 hv) hvs
  · exact confined_childModes _
  · exact confined_loopChanged _ hvs
  · exact confined_loopCycle _ hvs
  · exact alike_callAttribute hlow v name hvs

theorem confined_withOptions {named : Option (List (Value × Value))} (hvs : ∀ v ∈ vs, v.Within k)
    (hnamed : ∀ ps, named = some ps → PairsWithin k ps) :
    Confined k (fun ws => ∀ w ∈ ws, w.Within k) (withOptions vs named) := by
  cases named with
  | none => exact .pure hvs
  | some ps =>
    refine Confined.heap.bind fun h _ => .pure (List.forall_mem_append.2 ⟨hvs, ?_⟩)
    simpa using Member.within_putAll (h := h) (hnamed ps rfl)

theorem confined_spreadMembers (hv : v.Within k) :
    Confined k (PairsWithin k) (spreadMembers v) := by
  unfold spreadMembers
  split
  · exact .throw _
  · refine Confined.heap.bind fun h hh => ?_
    cases hps : v.pairs? h with
    | none => exact .throw _
    | some ps => exact .pure (hv.pairs? hh hps)

theorem alike_bodyText {x y : Run Unit} (hxy : Run.Alike k (fun _ => True) x y) :
    Run.Alike k (Value.Within k) (bodyText x) (bodyText y) :=
  (hxy.captured false).bind fun _ _ => Confined.textValue _

theorem alike_callName (hlow : low.Alike k low') (name : String) (hvs : ∀ v ∈ vs, v.Within k) :
    Run.Alike k (Value.Within k) (callName low home name vs) (callName low' home name vs) := by
  unfold callName
  split
  · exact .ite (fun _ => .throw_bind _) fun _ => alike_bodyText (alike_callSuper hlow)
  · split
    · exact alike_bodyText (alike_recurse hlow (hvs _ (by simp)))
    · exact .throw _
  · refine (Confined.lookup? _).bind fun f? _ => ?_
    cases f? with
    | none => exact .throw _
    | some f => exact alike_callValue hlow f hvs

/-- What a call is directed at is within the height. -/
def Callee.Within (k : Nat) : Callee → Prop
  | .method v _ => v.Within k
  | .value v => v.Within k
  | _ => True

/-- **Every call** is alike. -/
theorem Callee.alike_call (hlow : low.Alike k low') {c : Callee} (hc : c.Within k)
    (hvs : ∀ v ∈ vs, v.Within k) :
    Run.Alike k (Value.Within k) (c.call low home vs) (c.call low' home vs) := by
  cases c with
  | name n => exact alike_callName hlow n hvs
  | block n => exact alike_bodyText (alike_showBlock hlow n)
  | method v n => exact alike_callMethod hlow hc n hvs
  | value v => exact alike_callValue hlow v hvs

end Scaffold.Template
