import Scaffold.Proofs.Template.Calls
import Scaffold.Template.Render

/-!
# The nodes that a template reaches

Expressions, then statements, then whole templates are alike within a height, one lemma for each, if
what lies below them is (`Expression.alike_eval`, `Statement.alike_run`, `alike_lower`). A template
therefore renders no node that is not below its context (`renderTemplate_congr`).
-/

namespace Scaffold.Template

open Run (Confined)

variable {k : Nat} {low low' : Lower} {home : String} {v : Value} {vs : List Value}

/-! ### Expressions -/

/-- The arguments of a call: a list, and pairs if some are named. -/
def ArgumentsWithin (k : Nat) (p : List Value × Option (List (Value × Value))) : Prop :=
  (∀ v ∈ p.1, v.Within k) ∧ ∀ ps, p.2 = some ps → PairsWithin k ps

theorem alike_evalArguments {args : List Argument}
    (hplain : Run.Alike k (fun vs => ∀ v ∈ vs, v.Within k) (evalPlain low home args)
      (evalPlain low' home args))
    (hnamed : Run.Alike k (PairsWithin k) (evalNamed low home args) (evalNamed low' home args)) :
    Run.Alike k (ArgumentsWithin k) (evalArguments low home args) (evalArguments low' home args) := by
  rw [evalArguments, evalArguments]
  refine hplain.bind fun vs hvs => hnamed.bind fun ps hps => .pure ⟨hvs, fun qs hqs => ?_⟩
  dsimp only at hqs
  split_ifs at hqs
  cases hqs
  exact hps

/-- A call with arguments that are evaluated first. -/
def directed (low : Lower) (home : String) (line : Nat) (args : List Argument) (c : Callee) :
    Run Value := do
  let vs ← evalArguments low home args
  Run.blaming home line do
    c.call low home (← withOptions vs.1 vs.2)

theorem alike_directed (hlow : low.Alike k low') {args : List Argument} {c : Callee} {line : Nat}
    (hc : c.Within k) (hargs : Run.Alike k (ArgumentsWithin k) (evalArguments low home args)
      (evalArguments low' home args)) :
    Run.Alike k (Value.Within k) (directed low home line args c) (directed low' home line args c) :=
  hargs.bind fun _ hp => .blaming home line ((confined_withOptions hp.1 hp.2).bind fun _ hws =>
    Callee.alike_call hlow hc hws)

namespace Expression

variable {l m : Nat} {n : String} {e : Expression} {args : List Argument}

theorem eval_call_name : (call l (.name m n) args).eval low home =
    directed low home (blameArguments l args) args (.name n) := by
  rw [eval]
  rfl

theorem eval_call_block : (call l (.attribute (.name m "self") n) args).eval low home =
    Run.blaming home l ((Callee.block n).call low home []) := by
  rw [eval]

theorem eval_call_method (h : ∀ m, e ≠ .name m "self") :
    (call l (.attribute e n) args).eval low home = e.eval low home >>= fun v =>
      directed low home (blameArguments e.blame args) args (.method v n) := by
  rw [eval]
  · rfl
  · exact h

theorem eval_call_value (h : ∀ m n, e ≠ .name m n) (h' : ∀ e' n, e ≠ .attribute e' n) :
    (call l e args).eval low home = e.eval low home >>= fun v =>
      directed low home (blameArguments e.blame args) args (.value v) := by
  rw [eval]
  · rfl
  · exact h
  · exact fun m n he => h' _ _ he
  · exact h'

end Expression

mutual

theorem Expression.alike_eval (hlow : low.Alike k low') : ∀ e : Expression,
    Run.Alike k (Value.Within k) (e.eval low home) (e.eval low' home)
  | .literal _ c => by
    rw [Expression.eval, Expression.eval]
    exact .pure (Value.within_ofLiteral c)
  | .name _ n => by
    rw [Expression.eval, Expression.eval]
    exact Confined.lookup n
  | .list _ items => by
    rw [Expression.eval, Expression.eval]
    exact (alike_evalItems hlow items).bind fun vs hvs => .pure (Value.within_list.2 hvs)
  | .dictionary _ es => by
    rw [Expression.eval, Expression.eval]
    refine (alike_evalEntries hlow es).bind fun ps hps => Confined.heap.bind fun h _ => .pure ?_
    exact Value.within_map.2 (Member.within_putAll hps)
  | .unary l op e => by
    rw [Expression.eval, Expression.eval]
    refine (e.alike_eval hlow).bind fun v _ => ?_
    cases op with
    | not => exact .bind (.blaming _ _ (Confined.truth v)) fun _ _ => .pure (Value.within_bool _)
    | negate => exact .blaming _ _ (Confined.ofExcept fun _ hu => Value.within_negate hu)
  | .binary op a b => by
    rw [Expression.eval, Expression.eval]
    refine (a.alike_eval hlow).bind fun v hv => (b.alike_eval hlow).bind fun w hw => ?_
    exact .blaming _ _ (Confined.heap.bind fun h _ => Confined.ofExcept fun _ hu => hv.binary hw hu)
  | .and a b => by
    rw [Expression.eval, Expression.eval]
    refine (a.alike_eval hlow).bind fun v hv => ?_
    refine .bind (.blaming _ _ (Confined.truth v)) fun _ _ => ?_
    exact .ite (fun _ => b.alike_eval hlow) fun _ => .pure hv
  | .or a b => by
    rw [Expression.eval, Expression.eval]
    refine (a.alike_eval hlow).bind fun v hv => ?_
    refine .bind (.blaming _ _ (Confined.truth v)) fun _ _ => ?_
    exact .ite (fun _ => .pure hv) fun _ => b.alike_eval hlow
  | .conditional _ t yes no => by
    rw [Expression.eval, Expression.eval]
    refine (t.alike_eval hlow).bind fun v _ => ?_
    refine .bind (.blaming _ _ (Confined.truth v)) fun _ _ => ?_
    exact .ite (fun _ => yes.alike_eval hlow) fun _ => no.alike_eval hlow
  | .attribute e n => by
    rw [Expression.eval, Expression.eval]
    exact (e.alike_eval hlow).bind fun v hv => .blaming _ _ (Confined.attributeOf hv)
  | .item e key => by
    rw [Expression.eval, Expression.eval]
    refine (e.alike_eval hlow).bind fun v hv => (key.alike_eval hlow).bind fun w _ => ?_
    exact .blaming _ _ (Confined.itemOf hv w)
  | .slice e a b c => by
    rw [Expression.eval, Expression.eval]
    refine (e.alike_eval hlow).bind fun v hv => (a.alike_eval hlow).bind fun start _ => ?_
    refine (b.alike_eval hlow).bind fun stop _ => (c.alike_eval hlow).bind fun step _ => ?_
    exact .blaming _ _ (Confined.heap.bind fun h _ => Confined.ofExcept fun _ hu => hv.slice hu)
  | .filtered e f => by
    rw [Expression.eval, Expression.eval]
    exact (e.alike_eval hlow).bind fun v hv => f.alike_apply hlow _ v hv
  | .tested e t => by
    rw [Expression.eval, Expression.eval]
    exact (e.alike_eval hlow).bind fun v hv => t.alike_test hlow _ v hv
  | .call l e args => by
    have hargs := alike_evalArguments (alike_evalPlain hlow args) (alike_evalNamed hlow args)
    have hvalue (h : ∀ m n, e ≠ .name m n) (h' : ∀ e' n, e ≠ .attribute e' n) :
        Run.Alike k (Value.Within k) ((Expression.call l e args).eval low home)
          ((Expression.call l e args).eval low' home) := by
      rw [Expression.eval_call_value h h', Expression.eval_call_value h h']
      exact (e.alike_eval hlow).bind fun v hv => alike_directed hlow hv hargs
    cases e with
    | name m n =>
      rw [Expression.eval_call_name, Expression.eval_call_name]
      exact alike_directed hlow trivial hargs
    | «attribute» e n =>
      by_cases hself : ∃ m, e = .name m "self"
      · obtain ⟨m, rfl⟩ := hself
        rw [Expression.eval_call_block, Expression.eval_call_block]
        exact .blaming _ _ (Callee.alike_call hlow trivial (by simp))
      · have hself : ∀ m, e ≠ .name m "self" := fun m hm => hself ⟨m, hm⟩
        rw [Expression.eval_call_method hself, Expression.eval_call_method hself]
        exact (e.alike_eval hlow).bind fun v hv => alike_directed hlow hv hargs
    | _ => exact hvalue (by simp) (by simp)

theorem alike_evalItems (hlow : low.Alike k low') : ∀ es : List Expression,
    Run.Alike k (fun vs => ∀ v ∈ vs, v.Within k) (evalItems low home es) (evalItems low' home es)
  | [] => by
    rw [evalItems, evalItems]
    exact .pure (by simp)
  | e :: r => by
    rw [evalItems, evalItems]
    refine (e.alike_eval hlow).bind fun v hv => (alike_evalItems hlow r).bind fun vs hvs => .pure ?_
    exact List.forall_mem_cons.2 ⟨hv, hvs⟩

theorem alike_evalEntries (hlow : low.Alike k low') : ∀ es : List Entry,
    Run.Alike k (PairsWithin k) (evalEntries low home es) (evalEntries low' home es)
  | [] => by
    rw [evalEntries, evalEntries]
    exact .pure (by simp [PairsWithin])
  | .mk key e :: r => by
    rw [evalEntries, evalEntries]
    refine (key.alike_eval hlow).bind fun w hw => (e.alike_eval hlow).bind fun v hv => ?_
    refine (alike_evalEntries hlow r).bind fun ps hps => .pure ?_
    exact List.forall_mem_cons.2 ⟨⟨hw, hv⟩, hps⟩

theorem Link.alike_apply (hlow : low.Alike k low') : ∀ (f : Link) (line : Nat) (v : Value),
    v.Within k → Run.Alike k (Value.Within k) (f.apply low home line v) (f.apply low' home line v)
  | .mk _ n args, line, v, hv => by
    rw [Link.apply, Link.apply]
    refine .bind (alike_evalArguments (alike_evalPlain hlow args) (alike_evalNamed hlow args)) ?_
    refine fun p hp => .blaming _ _ ((confined_withOptions hp.1 hp.2).bind fun ws hws => ?_)
    exact Filter.confined_apply n (List.forall_mem_cons.2 ⟨hv, hws⟩)

theorem Link.alike_test (hlow : low.Alike k low') : ∀ (t : Link) (line : Nat) (v : Value),
    v.Within k → Run.Alike k (Value.Within k) (t.test low home line v) (t.test low' home line v)
  | .mk _ n args, line, v, hv => by
    rw [Link.test, Link.test]
    refine .bind (alike_evalArguments (alike_evalPlain hlow args) (alike_evalNamed hlow args)) ?_
    refine fun p hp => .blaming _ _ ((confined_withOptions hp.1 hp.2).bind fun ws hws => ?_)
    refine (Filter.confined_applyTest n (List.forall_mem_cons.2 ⟨hv, hws⟩)).bind fun _ _ => ?_
    exact .pure (Value.within_bool _)

theorem alike_evalPlain (hlow : low.Alike k low') : ∀ args : List Argument,
    Run.Alike k (fun vs => ∀ v ∈ vs, v.Within k) (evalPlain low home args)
      (evalPlain low' home args)
  | [] => by
    rw [evalPlain, evalPlain]
    exact .pure (by simp)
  | .value e :: r => by
    rw [evalPlain, evalPlain]
    refine (e.alike_eval hlow).bind fun v hv => (alike_evalPlain hlow r).bind fun vs hvs => .pure ?_
    exact List.forall_mem_cons.2 ⟨hv, hvs⟩
  | .spread e :: r => by
    rw [evalPlain, evalPlain]
    refine (e.alike_eval hlow).bind fun v hv => ?_
    have hitems : Confined k (fun vs => ∀ w ∈ vs, w.Within k) (do
        match v.items? (← Run.heap) with
        | some vs => pure vs
        | none => Run.failWith .invalidOperation (v.kind.name ++ " is not iterable")) := by
      refine Confined.heap.bind fun h _ => ?_
      cases hvs : v.items? h with
      | some vs => exact .pure (hv.items? hvs)
      | none => exact .throw _
    refine .bind (.blaming _ _ hitems) fun vs hvs => (alike_evalPlain hlow r).bind fun ws hws => ?_
    exact .pure (List.forall_mem_append.2 ⟨hvs, hws⟩)
  | .named .. :: r => by
    rw [evalPlain, evalPlain]
    exact alike_evalPlain hlow r
  | .spreadNamed _ :: r => by
    rw [evalPlain, evalPlain]
    exact alike_evalPlain hlow r

theorem alike_evalNamed (hlow : low.Alike k low') : ∀ args : List Argument,
    Run.Alike k (PairsWithin k) (evalNamed low home args) (evalNamed low' home args)
  | [] => by
    rw [evalNamed, evalNamed]
    exact .pure (by simp [PairsWithin])
  | .named n e :: r => by
    rw [evalNamed, evalNamed]
    refine (e.alike_eval hlow).bind fun v hv => (alike_evalNamed hlow r).bind fun ps hps => .pure ?_
    exact List.forall_mem_cons.2 ⟨⟨Value.within_ofText n, hv⟩, hps⟩
  | .spreadNamed e :: r => by
    rw [evalNamed, evalNamed]
    refine (e.alike_eval hlow).bind fun v hv => ?_
    refine .bind (.blaming _ _ (confined_spreadMembers hv)) fun ms hms => ?_
    refine (alike_evalNamed hlow r).bind fun ps hps => .pure (List.forall_mem_append.2 ⟨hms, hps⟩)
  | .value _ :: r => by
    rw [evalNamed, evalNamed]
    exact alike_evalNamed hlow r
  | .spread _ :: r => by
    rw [evalNamed, evalNamed]
    exact alike_evalNamed hlow r

end

/-! ### Statements -/

theorem confined_macroValue (m : Macro) : Confined k (Value.Within k) (macroValue home m) := by
  have hempty : (Cell.fields []).Within k := by simp [Cell.Within, EntriesWithin]
  unfold macroValue
  extract_lets free names enclosed
  have henclosed : ∀ cell, Confined k (Value.Within k) (enclosed cell) := fun cell =>
    .bind (.forM fun name _ => Confined.enclose cell name) fun _ _ =>
      .pure (Value.within_routine _ _ _ _)
  refine .ite (fun _ => ?_) fun _ => ?_
  · exact (Confined.newCell hempty).bind fun cell _ => henclosed cell
  · exact Confined.closure.bind fun cell _ => henclosed cell

theorem alike_applyLinks (hlow : low.Alike k low') (links : List Link) :
    ∀ (line : Nat) (v : Value), v.Within k →
      Run.Alike k (Value.Within k) (applyLinks low home line v links)
        (applyLinks low' home line v links) := by
  induction links with
  | nil => exact fun _ v hv => .pure hv
  | cons f r ih => exact fun line v hv => (f.alike_apply hlow line v hv).bind fun w hw => ih _ w hw

theorem alike_showExpression (hlow : low.Alike k low') (line : Nat) (e : Expression) :
    Run.Alike k (fun _ => True) (showExpression low home line e)
      (showExpression low' home line e) := by
  unfold showExpression
  split
  · exact .blaming _ _ (alike_callSuper hlow)
  · exact (Expression.alike_eval hlow _).bind fun v hv => .blaming _ _ (alike_recurse hlow hv)
  · exact .blaming _ _ (alike_showBlock hlow _)
  · exact (Expression.alike_eval hlow _).bind fun v _ => .blaming _ _ (Confined.emit v)

theorem alike_callWith (hlow : low.Alike k low') (line : Nat) (callee : Expression)
    (args : List Argument) (caller : Macro) :
    Run.Alike k (Value.Within k) (callWith low home line callee args caller)
      (callWith low' home line callee args caller) := by
  have hargs : Run.Alike k (ArgumentsWithin k) (evalArguments low home args)
      (evalArguments low' home args) :=
    alike_evalArguments (alike_evalPlain hlow args) (alike_evalNamed hlow args)
  unfold callWith
  extract_lets called called'
  have hcalled : ∀ p : Callee × Nat, p.1.Within k →
      Run.Alike k (Value.Within k) (called p) (called' p) := by
    rintro ⟨target, line⟩ htarget
    refine hargs.bind fun q hq => (confined_macroValue caller).bind fun c hc => ?_
    have hnamed : PairsWithin k (q.2.getD [] ++ [(.ofText "caller", c)]) := by
      refine List.forall_mem_append.2 ⟨?_, List.forall_mem_singleton.2 ⟨Value.within_ofText _, hc⟩⟩
      cases hps : q.2 with
      | none => simp
      | some ps => exact hq.2 ps hps
    refine .blaming _ _ (.bind (confined_withOptions hq.1 ?_) fun vs hvs => ?_)
    · rintro ps hps
      cases hps
      exact hnamed
    · exact Callee.alike_call hlow htarget hvs
  split
  · exact .bind (.pure trivial) hcalled
  · exact .bind (.pure trivial) hcalled
  · exact (Expression.alike_eval hlow _).bind fun v hv => .bind (.pure hv) hcalled
  · exact (Expression.alike_eval hlow _).bind fun v hv => .bind (.pure hv) hcalled

theorem confined_exported : Confined k (Value.Within k) exported := by
  refine Confined.get.bind fun s hs => ?_
  cases hframes : s.frames with
  | nil => exact .pure (Value.within_map.2 (by simp))
  | cons f r =>
    have hf : f.Within k := hs.frames f (hframes ▸ List.mem_cons_self)
    exact .pure (Value.within_map.2 (Member.within_ofEntries hf.locals))

theorem alike_visiting {α : Type} {Q : α → Prop} {m : Run α} (hlow : low.Alike k low') (line : Nat)
    (source : Expression) (hm : Confined k Q m) :
    Run.Alike k Q (visiting low home line source m) (visiting low' home line source m) := by
  refine .inFrame Frame.within_nothing ?_
  refine (Expression.alike_eval hlow source).bind fun v _ => ?_
  exact .bind (.blaming _ _ (alike_includeAny hlow false v)) fun _ _ => hm

mutual

theorem Statement.alike_run (hlow : low.Alike k low') : ∀ s : Statement,
    Run.Alike k (fun _ => True) (s.run low home) (s.run low' home)
  | .text s => by
    rw [Statement.run, Statement.run]
    exact (Confined.write s).bind fun _ _ => .pure trivial
  | .emit l e => by
    rw [Statement.run, Statement.run]
    exact (alike_showExpression hlow l e).bind fun _ _ => .pure trivial
  | .loop _ target items guards recursive body otherwise => by
    rw [Statement.run, Statement.run]
    refine (items.alike_eval hlow).bind fun v hv => ?_
    refine .bind (.blaming _ _ (Confined.iterated hv)) fun all hall => ?_
    refine .bind (Run.Alike.foldlM (R := fun vs => ∀ v ∈ vs, Value.Within k v) hall ?_) ?_
    · refine fun vs hvs g _ => .blaming _ _ (alike_selected ?_ hvs)
      exact (g.alike_eval hlow).bind fun w _ => .blaming _ _ (Confined.truth w)
    · refine fun chosen hchosen => ?_
      refine .bind (.blaming _ _ (alike_runLoop (alike_runAll hlow body) hchosen)) fun round _ => ?_
      exact .ite (fun _ => alike_runAll hlow otherwise) fun _ => .pure trivial
  | .branch _ t yes no => by
    rw [Statement.run, Statement.run]
    refine (t.alike_eval hlow).bind fun v _ => ?_
    refine .bind (.blaming _ _ (Confined.truth v)) fun _ _ => ?_
    exact .ite (fun _ => alike_runAll hlow yes) fun _ => alike_runAll hlow no
  | .scope l bindings body => by
    rw [Statement.run, Statement.run]
    refine .blaming _ _ (.inFrame Frame.within_nothing ?_)
    refine .bind (.forM fun b _ => ?_) fun _ _ => alike_runAll hlow body
    exact (b.value.alike_eval hlow).bind fun v hv => confined_assign b.target v hv
  | .assign target e => by
    rw [Statement.run, Statement.run]
    refine (e.alike_eval hlow).bind fun v hv => ?_
    exact (confined_assign target v hv).bind fun _ _ => .pure trivial
  | .capture l target links body => by
    rw [Statement.run, Statement.run]
    refine .bind ((alike_runAll hlow body).captured false) fun p _ => ?_
    obtain ⟨signal, text⟩ := p
    dsimp only
    split_ifs
    · refine (Confined.textValue text).bind fun v hv => ?_
      refine (alike_applyLinks hlow links _ v hv).bind fun w hw => ?_
      exact (confined_assign target w hw).bind fun _ _ => .pure trivial
    · exact .pure trivial
  | .escaping mode body => by
    rw [Statement.run, Statement.run]
    refine (mode.alike_eval hlow).bind fun v _ => Confined.heap.bind fun h _ => ?_
    refine .bind (.blaming _ _ (Confined.ofExcept fun _ _ => trivial)) fun e _ => ?_
    refine Confined.get.bind fun s _ => ?_
    refine .bind (Confined.modify fun u hu => ⟨hu.heap, hu.frames⟩) fun _ _ => ?_
    refine (alike_runAll hlow body).bind fun signal _ => ?_
    exact .bind (Confined.modify fun u hu => ⟨hu.heap, hu.frames⟩) fun _ _ => .pure trivial
  | .filtering l links body => by
    rw [Statement.run, Statement.run]
    refine .bind ((alike_runAll hlow body).captured false) fun p _ => ?_
    obtain ⟨signal, text⟩ := p
    dsimp only
    split_ifs
    · refine (Confined.textValue text).bind fun v hv => ?_
      refine (alike_applyLinks hlow links _ v hv).bind fun w hw => ?_
      exact .bind (.blaming _ _ (Confined.emit w)) fun _ _ => .pure trivial
    · exact .pure trivial
  | .block l name _ => by
    rw [Statement.run, Statement.run]
    exact .bind (.blaming _ _ (alike_showBlock hlow name)) fun _ _ => .pure trivial
  | .inherit l e => by
    rw [Statement.run, Statement.run]
    refine (e.alike_eval hlow).bind fun v _ => ?_
    exact .bind (.blaming _ _ (confined_inheritFrom v)) fun _ _ => .pure trivial
  | .insert l e ignoreMissing => by
    rw [Statement.run, Statement.run]
    refine (e.alike_eval hlow).bind fun v _ => ?_
    exact .bind (.blaming _ _ (alike_includeAny hlow ignoreMissing v)) fun _ _ => .pure trivial
  | .load l source name => by
    rw [Statement.run, Statement.run]
    have hvisit : Run.Alike k (Value.Within k)
        (Run.blaming home l (visiting low home l source exported))
        (Run.blaming home l (visiting low' home l source exported)) :=
      (alike_visiting hlow l source confined_exported).blaming home l
    refine (hvisit.captured true).bind fun p hp => ?_
    exact (Confined.assign hp).bind fun _ _ => .pure trivial
  | .pick l source names => by
    rw [Statement.run, Statement.run]
    have hnames : Confined k (fun vs => ∀ v ∈ vs, v.Within k)
        (names.mapM fun p => Run.lookup p.name) :=
      .mapM fun p _ => Confined.lookup p.name
    refine .bind (((alike_visiting hlow l source hnames).blaming _ _).captured true) fun q hq => ?_
    obtain ⟨vs, text⟩ := q
    refine .bind (.forM fun p hp => ?_) fun _ _ => .pure trivial
    exact Confined.assign (hq _ (List.of_mem_zip (List.mem_reverse.1 hp)).2)
  | .define m => by
    rw [Statement.run, Statement.run]
    refine (confined_macroValue m).bind fun v hv => ?_
    exact (Confined.assign hv).bind fun _ _ => .pure trivial
  | .callWith l callee args caller => by
    rw [Statement.run, Statement.run]
    refine (alike_callWith hlow l callee args caller).bind fun v _ => ?_
    exact .bind (.blaming _ _ (Confined.emit v)) fun _ _ => .pure trivial
  | .perform l callee args => by
    rw [Statement.run, Statement.run]
    exact (Expression.alike_eval hlow _).bind fun _ _ => .pure trivial
  | .leave => by
    rw [Statement.run, Statement.run]
    exact .pure trivial
  | .skip => by
    rw [Statement.run, Statement.run]
    exact .pure trivial

theorem alike_runAll (hlow : low.Alike k low') : ∀ ss : List Statement,
    Run.Alike k (fun _ => True) (runAll low home ss) (runAll low' home ss)
  | [] => by
    rw [runAll, runAll]
    exact .pure trivial
  | s :: r => by
    rw [runAll, runAll]
    refine (s.alike_run hlow).bind fun signal _ => ?_
    cases signal with
    | on => exact alike_runAll hlow r
    | leave => exact .pure trivial
    | skip => exact .pure trivial

end

/-! ### Templates -/

theorem alike_runBody (hlow : low.Alike k low') (body : List Statement) :
    Run.Alike k (fun _ => True) (runBody low home body) (runBody low' home body) := by
  refine Confined.get.bind fun s hs => .bind (Confined.set ⟨hs.heap, hs.frames⟩) fun _ _ => ?_
  refine (alike_runAll hlow body).bind fun _ _ => Confined.get.bind fun r hr => ?_
  have hrestore : Confined k (fun _ => True)
      (modify fun r : Machine => { r with parent := s.parent, kept := s.kept } : Run PUnit) :=
    Confined.modify fun u hu => ⟨hu.heap, hu.frames⟩
  cases r.parent with
  | none => exact hrestore
  | some t =>
    refine .bind (Confined.set ⟨hr.heap, hr.frames⟩) fun _ _ => ?_
    exact (hlow.body t.name t.body).bind fun _ _ => hrestore

variable {child child' : Node → String → Inquiry (Except Failure String)}

/-- **Every level below a rendering** is alike if lower nodes are rendered in the same way. -/
theorem alike_lower (hchild : ∀ c mode, c.height < k → child c mode = child' c mode) (n : Nat) :
    (lower child n).Alike k (lower child' n) := by
  induction n with
  | zero =>
    exact
      { eval := fun _ _ => .throw _
        statements := fun _ _ => .throw _
        body := fun _ _ => .throw _
        again := fun _ _ _ _ => .throw _
        child := hchild }
  | succ n ih =>
    exact
      { eval := fun _ e => e.alike_eval ih
        statements := fun _ body => (alike_runAll ih body).bind fun _ _ => .pure trivial
        body := fun _ body => alike_runBody ih body
        again := fun _ r _ hv => .blaming _ _ <| (Confined.iterated hv).bind fun _ hvs =>
          (alike_runLoop (alike_runAll ih r.body) hvs).bind fun _ _ => .pure trivial
        child := hchild }

theorem Machine.within_start (t : Template) {context : Value} (hcontext : context.Within k) :
    (Machine.start t context).Within k := by
  refine ⟨Heap.within_empty, fun f hf => ?_⟩
  rw [Machine.start, List.mem_singleton] at hf
  subst hf
  exact ⟨hcontext, by simp [EntriesWithin, Frame.on]⟩

/-- **A template reaches only the nodes of its context** and those below them: how other nodes would
be rendered makes no difference. -/
theorem renderTemplate_congr (hchild : ∀ c mode, c.height < k → child c mode = child' c mode)
    (t : Template) {context : Value} (hcontext : context.Within k) :
    renderTemplate child t context = renderTemplate child' t context := by
  have hbody : Run.Alike k (fun _ => True) (runBody (lower child levels) t.name t.body)
      (runBody (lower child' levels) t.name t.body) :=
    alike_runBody (alike_lower hchild levels) t.body
  rw [renderTemplate, renderTemplate, (hbody _ (Machine.within_start t hcontext)).1]

end Scaffold.Template
