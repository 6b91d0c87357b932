import Scaffold.Proofs.Template.Run
import Scaffold.Proofs.Template.Wrapping

/-!
# Rendering a wrapping

A wrapping writes its first text, the value, the renderings of the children, and its second text. If
there is no value, or a child cannot be rendered, it fails for the first of these reasons
(`Wrapping.eval_renderTemplate`).
-/

namespace Scaffold.Template

open Run

variable {A : String → Except RenderFault Template} {M : String → Except Failure (List String)}
  {K : Kept} {s t : Machine}

variable {frame : Frame} {frames : List Frame} {home mode : String} {low : Lower} {c : Node}

/-- The fault of a template in which a child cannot be rendered. -/
def childFault (home : String) (line : Nat) (c : Node) (mode : String) (f : Failure) : RenderFault :=
  .mk .invalidOperation (some ("cannot render <" ++ c.tag ++ "> as '" ++ mode ++ "'"))
    (some (home, line)) (.failure f)

namespace Wrapping

/-- The arguments of a rendering: the mode. -/
theorem result_modeArgument (line : Nat) :
    (evalArguments low home [.value (.literal line (.text mode))]).result A M K s =
      (.ok ([.ofText mode], none), s) := by
  have hplain : (evalPlain low home [.value (.literal line (.text mode))]).result A M K s =
      (.ok [.ofText mode], s) := by
    rw [evalPlain, Expression.eval]
    refine (result_bind_of_ok (a := .ofText mode) (t := s) rfl).trans ?_
    rw [evalPlain]
    rfl
  have hnamed : ∀ K, (evalNamed low home [.value (.literal line (.text mode))]).result A M K s =
      (.ok [], s) := by
    intro K
    rw [evalNamed, evalNamed]
    rfl
  rw [evalArguments]
  exact (result_bind_of_ok hplain).trans (result_bind_of_ok (hnamed _))

/-- A child is rendered by the machine below; where that fails, its failure is the cause. -/
theorem result_call_render :
    ((Callee.method (.node c) "render").call low home [.ofText mode]).result A M K s =
      match (low.child c mode).eval A M K with
      | .ok x => (.ok (.text x true), s)
      | .error f => (.error ((RenderFault.of .invalidOperation
          ("cannot render <" ++ c.tag ++ "> as '" ++ mode ++ "'")).causedBy (.failure f)), s) := by
  let take : Run String := StateT.run' (do
    let mode ← Form.string (← Taking.value)
    Taking.finish
    pure mode : Taking String) [.ofText mode]
  have htake : take.result A M K s = (.ok mode, s) := rfl
  have hkept : take.keptAfter A M K s = K := rfl
  refine (result_bind_of_ok htake).trans ?_
  rw [hkept]
  cases hx : (low.child c mode).eval A M K with
  | ok x =>
    refine result_bind_of_ok (a := x) ?_
    refine (result_bind_of_ok (result_ask _)).trans ?_
    rw [hx]
    rfl
  | error f =>
    refine result_bind_of_error ?_
    refine (result_bind_of_ok (result_ask _)).trans ?_
    rw [hx]
    rfl

theorem result_rendering (w : Wrapping) (hs : s.frames = frame :: frames)
    (hc : inFrame? s.heap "c" frame = some (.node c)) (hsteady : (low.child c mode).Steady A M) :
    ((w.rendering mode).eval low home).result A M K s =
      ((((low.child c mode).eval A M none).map fun x => Value.text x true).mapError
        (childFault home w.line c mode), s) := by
  have hname : (Expression.eval low home (.name w.line "c")).result A M K s = (.ok (.node c), s) := by
    rw [Expression.eval]
    exact result_lookup hs hc
  rw [rendering, Expression.eval]
  · refine (result_bind_of_ok hname).trans ((result_bind_of_ok (result_modeArgument w.line)).trans ?_)
    have hwith : ∀ K, (withOptions [.ofText mode] none).result A M K s =
        (.ok [.ofText mode], s) := fun _ => rfl
    -- what has been kept by then makes no difference to the child
    rw [result_blaming, result_bind_of_ok (hwith _), result_call_render, hsteady _ none]
    cases (low.child c mode).eval A M none with
    | ok x => rfl
    | error f =>
      have hline : blameArguments (Expression.name w.line "c").blame
          [.value (.literal w.line (.text mode))] = w.line := by
        simp [blameArguments, blameEach, blameArgument, Expression.blame]
      rw [hline]
      rfl
  · simp

/-- The machine writes values as they are, its template has no parent, and its innermost frame,
which no macro holds on to, stands on these. -/
structure Ready (s : Machine) (frames : List Frame) : Prop where
  escaping : s.escaping = .none
  parent : s.parent = none
  frame : ∃ f, s.frames = f :: frames ∧ f.closure = none

/-- What the rendering of a child comes to in the template, if nothing is kept at first. -/
def childText (A : String → Except RenderFault Template)
    (M : String → Except Failure (List String)) (w : Wrapping) (low : Lower) (home mode : String)
    (c : Node) : Except RenderFault String :=
  ((low.child c mode).eval A M none).mapError (childFault home w.line c mode)

/-- The body of the loop writes the rendering of its child, if that does not turn on what is kept. -/
theorem writes_body (w : Wrapping) (hs : Ready s frames) {f : Frame} (hf : s.frames = f :: frames)
    (hc : inFrame? s.heap "c" f = some (.node c)) (hsteady : (low.child c mode).Steady A M) :
    Writes A M (Ready · frames) (runAll low home [.emit w.line (w.rendering mode)]) s .on
      (w.childText A M low home mode c) := by
  have heval : ∀ K, ((w.rendering mode).eval low home).result A M K s =
      ((((low.child c mode).eval A M none).map fun x => Value.text x true).mapError
        (childFault home w.line c mode), s) := fun _ => w.result_rendering hf hc hsteady
  have hdefault : showExpression low home w.line (w.rendering mode) =
      (w.rendering mode).eval low home >>= fun v =>
        Run.blaming home (w.rendering mode).blame (Run.emit v) := by
    rw [rendering, showExpression]
    all_goals simp
  have hshow : Writes A M (Ready · frames) (showExpression low home w.line (w.rendering mode)) s ()
      (w.childText A M low home mode c) := by
    rw [hdefault, childText]
    cases hx : (low.child c mode).eval A M none with
    | ok x =>
      rw [hx] at heval
      have hemit : ∀ K, (blaming home (w.rendering mode).blame (emit (.text x true))).result A M K s =
          (.ok (), { s with out := s.out ++ x }) := by
        intro K
        rw [result_blaming, result_emit_text x true hs.escaping]
        rfl
      exact fun K => ⟨_, (result_bind_of_ok (heval K)).trans (hemit _),
        ⟨hs.escaping, hs.parent, hs.frame⟩, rfl⟩
    | error g =>
      rw [hx] at heval
      exact fun K => ⟨_, result_bind_of_error (heval K)⟩
  rw [runAll, Statement.run]
  refine (hshow.bind_of_ok (b := Signal.on) fun _ _ _ => rfl).bind_of_ok fun _ _ _ => ?_
  rw [runAll]
  rfl

/-- One round of the loop. -/
def round (w : Wrapping) (low : Lower) (home mode : String) (v : Value) : Run Signal := do
  Target.assign home (.name "c") v
  runAll low home [.emit w.line (w.rendering mode)]

theorem writes_round (w : Wrapping) (hs : Ready s frames) (c : Node)
    (hsteady : (low.child c mode).Steady A M) :
    Writes A M (Ready · frames) (w.round low home mode (.node c)) s .on
      (w.childText A M low home mode c) := by
  obtain ⟨f, hf, hclosure⟩ := hs.frame
  let g : Frame := { f with locals := Entries.put "c" (.node c) f.locals, closure := none }
  have hassign : ∀ K, (Target.assign home (.name "c") (.node c)).result A M K s =
      (.ok (), { s with frames := g :: frames }) := by
    intro K
    have hget : (get : Run Machine).result A M K s = (.ok s, s) := rfl
    rw [Target.assign, Run.assign]
    refine (result_bind_of_ok hget).trans ?_
    simp only [hf, hclosure]
    rfl
  have hready : Ready { s with frames := g :: frames } frames :=
    ⟨hs.escaping, hs.parent, g, rfl, rfl⟩
  have hc : inFrame? s.heap "c" g = some (.node c) := by
    rw [inFrame?, Entries.lookup_put_self]
  exact (w.writes_body hready rfl hc hsteady).of_result_eq
    (fun K => ⟨_, result_bind_of_ok (hassign K)⟩) rfl

/-- The texts of some nodes one after the other. -/
def joined {ε : Type} (g : Node → Except ε String) : List Node → Except ε String
  | [] => pure ""
  | c :: r => do pure ((← g c) ++ (← joined g r))

/-- **The rounds of the loop** write the renderings of the children up to the first that fails. -/
theorem writes_rounds (w : Wrapping) (cell : Nat) (cs : List Node)
    (hsteady : ∀ c ∈ cs, (low.child c mode).Steady A M) : ∀ (s : Machine)
    (previous : Option Value) (index : Nat), Ready s frames →
    Writes A M (Ready · frames) (rounds cell (w.round low home mode) previous index
      (cs.map Value.node)) s (index + cs.length) (joined (w.childText A M low home mode) cs) := by
  induction cs with
  | nil =>
    intro s previous index hs
    exact fun K => ⟨s, rfl, hs, String.append_empty.symm⟩
  | cons c r ih =>
    intro s previous index hs
    obtain ⟨hc, hr⟩ := List.forall_mem_cons.1 hsteady
    obtain ⟨h, hh⟩ : ∃ h, ∀ K, (Run.heap : Run Heap).result A M K s = (.ok h, s) :=
      ⟨_, fun _ => rfl⟩
    let now : Running := { h.running cell with
      index := index, previous := previous, following := (r.map Value.node).head? }
    let started : Machine := { s with heap := s.heap.set cell (.running now) }
    have hset : ∀ K, (Run.setCell cell (.running now)).result A M K s = (.ok (), started) :=
      fun _ => rfl
    have hround : Writes A M (Ready · frames) (w.round low home mode (.node c)) started .on _ :=
      w.writes_round (s := started) ⟨hs.escaping, hs.parent, hs.frame⟩ c hc
    have hcount : index + (c :: r).length = index + 1 + r.length := by
      rw [List.length_cons, Nat.add_right_comm, Nat.add_assoc]
    rw [List.map_cons, rounds, joined, hcount]
    refine (hround.bind fun t ht => ?_).of_result_eq
      (fun K => ⟨_, (result_bind_of_ok (hh K)).trans (result_bind_of_ok (hset _))⟩) rfl
    exact ih hr t _ _ ht

/-- The loop has a frame of its own, which is gone afterwards. -/
theorem writes_runLoop (w : Wrapping) {f : Frame} (cs : List Node)
    (hsteady : ∀ c ∈ cs, (low.child c mode).Steady A M) (hs : Ready s [])
    (hf : s.frames = [f]) (houter : s.outer = 0) (hloop : f.loop = none) :
    Writes A M (Ready · []) (runLoop home (.name "c") none
      (runAll low home [.emit w.line (w.rendering mode)]) (cs.map Value.node)) s cs.length
      (joined (w.childText A M low home mode) cs) := by
  -- there is no loop around this one
  have hdepth : ∀ K, loopDepth.result A M K s = (.ok 0, s) := by
    intro K
    have hcurrent : currentLoop?.result A M K s = (.ok (s.frames.findSome? Frame.loop), s) := rfl
    refine (result_bind_of_ok hcurrent).trans ?_
    rw [hf, List.findSome?_cons, hloop]
    rfl
  let r : Running := ⟨0, (cs.map Value.node).length, 0, none, none, none⟩
  let cell := (s.heap.new (.running r)).1
  let started : Machine := { s with heap := (s.heap.new (.running r)).2 }
  let within : Frame := { Frame.on .nothing with loop := some ⟨cell, true, none⟩ }
  have hcell : ∀ K, (newCell (.running r)).result A M K s = (.ok cell, started) := fun _ => rfl
  have hlimit : started.outer + started.frames.length < depthLimit := by
    change s.outer + s.frames.length < depthLimit
    rw [houter, hf]
    exact (by decide : 0 + 1 < 500)
  have hrounds : Writes A M (Ready · s.frames) (rounds cell (w.round low home mode) none 0
      (cs.map Value.node)) { started with frames := within :: started.frames } (0 + cs.length) _ :=
    w.writes_rounds cell cs hsteady _ none 0 ⟨hs.escaping, hs.parent, within, rfl, rfl⟩
  have hrun : ∀ K, ∃ K', (runLoop home (.name "c") none
      (runAll low home [.emit w.line (w.rendering mode)]) (cs.map Value.node)).result A M K s =
      (inFrame within (rounds cell (w.round low home mode) none 0 (cs.map Value.node))).result
        A M K' started :=
    fun K => ⟨_, (result_bind_of_ok (hdepth K)).trans (result_bind_of_ok (hcell _))⟩
  refine Writes.of_result_eq hrun rfl ?_
  -- after a fault the frame stays; otherwise it is dropped and the one below is on top again
  cases hx : joined (w.childText A M low home mode) cs with
  | error e =>
    rw [hx] at hrounds
    intro K
    obtain ⟨t, ht⟩ := hrounds K
    exact ⟨t, result_inFrame_of_error hlimit ht⟩
  | ok x =>
    rw [hx] at hrounds
    intro K
    obtain ⟨t, ht, hready, hout⟩ := hrounds K
    obtain ⟨g, hg, -⟩ := hready.frame
    rw [Nat.zero_add] at ht
    refine ⟨_, result_inFrame_of_ok hlimit ht, ⟨hready.escaping, hready.parent, ?_⟩, hout⟩
    rw [hg, List.drop_one, List.tail_cons]
    exact hs.frame

/-- A fault in a child has a place already. -/
theorem placed_joined (w : Wrapping) (cs : List Node) :
    (joined (w.childText A M low home mode) cs).mapError (·.placed home w.line) =
      joined (w.childText A M low home mode) cs := by
  induction cs with
  | nil => rfl
  | cons c r ih =>
    rw [joined]
    cases hc : w.childText A M low home mode c with
    | error e =>
      cases hx : (low.child c mode).eval A M none with
      | ok x => rw [childText, hx] at hc; cases hc
      | error g => rw [childText, hx] at hc; cases hc; rfl
    | ok x =>
      cases hr : joined (w.childText A M low home mode) r with
      | error e => rw [hr] at ih; exact ih
      | ok y => rfl

/-- **The loop** writes the renderings of the children up to the first that fails. -/
theorem writes_loop (w : Wrapping) {f : Frame} {cs : List Node}
    (hsteady : ∀ c ∈ cs, (low.child c mode).Steady A M) (hs : Ready s [])
    (hf : s.frames = [f]) (houter : s.outer = 0) (hloop : f.loop = none)
    (hc : inFrame? s.heap "children" f = some (.list (cs.map Value.node))) :
    Writes A M (Ready · []) ((w.loop mode).run low home) s .on
      (joined (w.childText A M low home mode) cs) := by
  have hitems : ∀ K, (Expression.eval low home (.name w.line "children")).result A M K s =
      (.ok (.list (cs.map Value.node)), s) := by
    intro K
    rw [Expression.eval]
    exact result_lookup hf hc
  have hiterated : ∀ K, (blaming home w.line (iterated (.list (cs.map Value.node)))).result A M K s =
      (.ok (cs.map Value.node), s) := by
    intro K
    rw [result_blaming]
    rfl
  have hchosen : ∀ K, (pure (cs.map Value.node) : Run (List Value)).result A M K s =
      (.ok (cs.map Value.node), s) := fun _ => rfl
  have hlooped : Writes A M (Ready · []) (runLoop home (.name "c") none
      (runAll low home [.emit w.line (w.rendering mode)]) (cs.map Value.node)) s cs.length _ :=
    w.writes_runLoop cs hsteady hs hf houter hloop
  have hrounds := hlooped.blaming home w.line
  rw [placed_joined] at hrounds
  rw [Wrapping.loop, Statement.run]
  simp only [List.foldlM_nil, List.foldl_nil, Expression.blame, Bool.false_eq_true, if_false]
  refine (hrounds.bind_of_ok fun K t _ => ?_).of_result_eq
    (fun K => ⟨_, (result_bind_of_ok (hitems K)).trans
      ((result_bind_of_ok (hiterated _)).trans (result_bind_of_ok (hchosen _)))⟩) rfl
  split_ifs
  · rw [runAll]
    rfl
  · rfl

/-! ### A template from its beginning to its end -/

/-- The machine in the only frame of a template that sees the names of a value. -/
structure Begun (context : Value) (s : Machine) : Prop extends Ready s [] where
  frames : s.frames = [Frame.on (.given context)]
  outer : s.outer = 0

theorem Begun.start (t : Template) (context : Value) : Begun context (Machine.start t context) :=
  ⟨⟨rfl, rfl, _, rfl, rfl⟩, rfl, rfl⟩

section

variable {P Q : Machine → Prop} {r r' : Except RenderFault String} {context : Value}

theorem writes_cons {first : Statement} {rest : List Statement}
    (hfirst : Writes A M P (first.run low home) s .on r)
    (hrest : ∀ t, P t → Writes A M Q (runAll low home rest) t .on r') :
    Writes A M Q (runAll low home (first :: rest)) s .on (do pure ((← r) ++ (← r'))) := by
  rw [runAll]
  exact hfirst.bind hrest

theorem writes_nil (hs : P s) : Writes A M P (runAll low home []) s .on (.ok "") := by
  rw [runAll]
  exact fun K => ⟨s, rfl, hs, String.append_empty.symm⟩

/-- A text is written as it is, before other statements. -/
theorem writes_text (x : String) (rest : List Statement) (hs : P s)
    (hp : ∀ t out, P t → P { t with out := out })
    (hrest : ∀ t, P t → Writes A M Q (runAll low home rest) t .on r) :
    Writes A M Q (runAll low home (textStatement x ++ rest)) s .on (r.map (x ++ ·)) := by
  rw [textStatement]
  split_ifs with hx
  · have hmap : r.map (x ++ ·) = r := by
      cases r with
      | error e => rfl
      | ok y => rw [Except.map, hx, String.empty_append]
    rw [hmap]
    exact hrest s hs
  · have htext : Writes A M P ((Statement.text x).run low home) s .on (.ok x) := by
      rw [Statement.run]
      exact fun K => ⟨{ s with out := s.out ++ x }, rfl, hp s _ hs, rfl⟩
    have hall := writes_cons htext hrest
    cases r <;> exact hall

theorem showExpression_name (line line' : Nat) (name : String) :
    showExpression low home line (.name line' name) =
      (Expression.name line' name).eval low home >>= fun v =>
        Run.blaming home line' (Run.emit v) := by
  rw [showExpression, Expression.blame]
  all_goals simp

/-- A name that stands for a value writes the text of the value. -/
theorem writes_name {name : String} {v : Value} (line line' : Nat) (hs : Begun context s)
    (hv : context.attribute? s.heap name = some v) (hdefined : v ≠ .undefined false) :
    Writes A M (Begun context) ((Statement.emit line (.name line' name)).run low home) s .on
      (.ok (v.shown s.heap)) := by
  have hname : ∀ K, ((Expression.name line' name).eval low home).result A M K s = (.ok v, s) := by
    intro K
    have hframe : inFrame? s.heap name (Frame.on (.given context)) = some v := hv
    rw [Expression.eval]
    exact result_lookup hs.frames hframe
  have hemit : ∀ K, (blaming home line' (emit v)).result A M K s =
      (.ok (), { s with out := s.out ++ v.shown s.heap }) := by
    intro K
    rw [result_blaming, result_emit hdefined hs.escaping]
    rfl
  rw [Statement.run, showExpression_name]
  exact fun K => ⟨_, result_bind_of_ok ((result_bind_of_ok (hname K)).trans (hemit _)),
    ⟨⟨hs.escaping, hs.parent, hs.frame⟩, hs.frames, hs.outer⟩, rfl⟩

/-- The value, which has to be there. -/
def valueText (w : Wrapping) (home : String) : Option String → Except RenderFault String
  | none => .error ((RenderFault.bare .undefinedValue).placed home w.line)
  | some v => .ok v

theorem writes_value (w : Wrapping) {v? : Option String} (hs : Begun context s)
    (hv : context.attribute? s.heap "value" = v?.map .ofText) :
    Writes A M (Begun context) ((Statement.emit w.line (.name w.line "value")).run low home) s .on
      (w.valueText home v?) := by
  cases v? with
  | some x => exact writes_name w.line w.line hs hv (by simp [Value.ofText])
  | none =>
    have hframe : inFrame? s.heap "value" (Frame.on (.given context)) = none := hv
    have hname : ∀ K, ((Expression.name w.line "value").eval low home).result A M K s =
        (.ok (.undefined false), s) := by
      intro K
      have hlookup : (lookup "value").result A M K s =
          (.ok (((s.frames.findSome? (inFrame? s.heap "value")).or (builtin? "value")).getD
            (.undefined false)), s) := rfl
      rw [Expression.eval, hlookup, hs.frames, List.findSome?_cons, hframe]
      rfl
    rw [Statement.run, showExpression_name]
    refine fun K => ⟨s, result_bind_of_error ((result_bind_of_ok (hname K)).trans ?_)⟩
    rw [result_blaming]
    rfl

/-- What a wrapping comes to for a value, if there is one, and the texts of the children. -/
def outcome (w : Wrapping) (home : String) (v? : Option String)
    (children : Except RenderFault String) : Except RenderFault String := do
  let v ← w.valueText home v?
  let x ← children
  pure (w.before ++ (v ++ (x ++ w.after)))

theorem writes_statements (w : Wrapping) {v? : Option String} {cs : List Node}
    (hsteady : ∀ c ∈ cs, (low.child c mode).Steady A M) (hs : Begun context s) (hv : ∀ h, context.attribute? h "value" = v?.map .ofText)
    (hc : ∀ h, context.attribute? h "children" = some (.list (cs.map Value.node))) :
    Writes A M (Ready · []) (runAll low home (w.statements mode)) s .on
      (w.outcome home v? (joined (w.childText A M low home mode) cs)) := by
  have hloop (t : Machine) (ht : Begun context t) :
      Writes A M (Ready · []) ((w.loop mode).run low home) t .on _ :=
    w.writes_loop hsteady ht.toReady ht.frames ht.outer rfl (hc t.heap)
  have hafter (t : Machine) (ht : Ready t []) :
      Writes A M (Ready · []) (runAll low home (textStatement w.after)) t .on (.ok w.after) := by
    have htext : Writes A M (Ready · []) (runAll low home (textStatement w.after ++ [])) t .on _ :=
      writes_text w.after [] ht (fun t _ ht => ⟨ht.escaping, ht.parent, ht.frame⟩)
        fun t ht => writes_nil ht
    rwa [List.append_nil, Except.map, String.append_empty] at htext
  have hvalue (t : Machine) (ht : Begun context t) := writes_cons (w.writes_value ht (hv t.heap))
    fun t ht => writes_cons (hloop t ht) hafter
  have hall := writes_text w.before _ (P := Begun context) hs
    (fun t _ ht => ⟨⟨ht.escaping, ht.parent, ht.frame⟩, ht.frames, ht.outer⟩) hvalue
  rw [statements, outcome]
  cases hx : w.valueText home v? with
  | error e => rw [hx] at hall; exact hall
  | ok v =>
    rw [hx] at hall
    cases hy : joined (w.childText A M low home mode) cs with
    | error e => rw [hy] at hall; exact hall
    | ok x => rw [hy] at hall; exact hall

theorem lower_child (child : Node → String → Inquiry (Except Failure String)) (n : Nat) :
    (lower child n).child = child := by cases n <;> rfl

/-- A body of a template without a parent. -/
theorem writes_runBody {body : List Statement} (hs : s.parent = none)
    (hbody : Writes A M (Ready · []) (runAll low home body) s .on r) :
    Writes A M (fun _ => True) (runBody low home body) s () r := by
  obtain ⟨t, ht⟩ : ∃ t, t = { s with parent := none } := ⟨_, rfl⟩
  have hst : t = s := by rw [ht, ← hs]
  have hget (K : Kept) (u : Machine) : (get : Run Machine).result A M K u = (.ok u, u) := rfl
  have hset : ∀ K, (set { s with parent := none } : Run PUnit).result A M K s = (.ok ⟨⟩, s) := by
    intro K
    rw [← ht, hst]
    rfl
  rw [runBody]
  refine Writes.of_result_eq (fun K => ⟨_, (result_bind_of_ok (hget K s)).trans
    (result_bind_of_ok (hset _))⟩) rfl ?_
  cases r with
  | error e =>
    intro K
    obtain ⟨u, hu⟩ := hbody K
    exact ⟨u, result_bind_of_error hu⟩
  | ok x =>
    intro K
    obtain ⟨u, hu, hready, hout⟩ := hbody K
    refine ⟨{ u with parent := s.parent, kept := s.kept }, ?_, trivial, hout⟩
    refine (result_bind_of_ok hu).trans ((result_bind_of_ok (hget _ u)).trans ?_)
    rw [hready.parent]
    rfl

/-- What the body of a template writes is its text. -/
theorem eval_of_writes {child : Node → String → Inquiry (Except Failure String)} {t : Template}
    (h : Writes A M (fun _ => True) (runBody (lower child levels) t.name t.body)
      (Machine.start t context) () r) : (renderTemplate child t context).eval A M K = r := by
  have hrun : (renderTemplate child t context).eval A M K =
      ((runBody (lower child levels) t.name t.body).result A M K (Machine.start t context)).1.map
        fun _ => ((runBody (lower child levels) t.name t.body).result A M K
          (Machine.start t context)).2.out := Inquiry.eval_bind _ _
  rw [hrun]
  cases r with
  | error e =>
    obtain ⟨u, hu⟩ := h K
    rw [hu]
    rfl
  | ok x =>
    obtain ⟨u, hu, -, hout⟩ := h K
    rw [hu]
    exact congrArg Except.ok (hout.trans String.empty_append)

/-- **The template of a wrapping** comes to the first text, the value, the texts of the children and
the second text, or fails for the first of these that is missing, if the renderings of the children do
not turn on what is kept. -/
theorem eval_renderTemplate (w : Wrapping) {v? : Option String} {cs : List Node}
    (hv : ∀ h, context.attribute? h "value" = v?.map .ofText)
    (hc : ∀ h, context.attribute? h "children" = some (.list (cs.map Value.node)))
    (child : Node → String → Inquiry (Except Failure String))
    (hsteady : ∀ c ∈ cs, (child c mode).Steady A M) (name : String) :
    (renderTemplate child ⟨name, w.statements mode⟩ context).eval A M K =
      w.outcome name v? (joined (fun c => ((child c mode).eval A M none).mapError
        (childFault name w.line c mode)) cs) := by
  have hbegun := Begun.start ⟨name, w.statements mode⟩ context
  have hstatements : Writes A M (Ready · [])
      (runAll (lower child levels) name (w.statements mode)) _ .on _ :=
    w.writes_statements (by rwa [lower_child]) hbegun hv hc
  have htexts : w.childText A M (lower child levels) name mode = fun c =>
      ((child c mode).eval A M none).mapError (childFault name w.line c mode) := by
    funext c
    rw [childText, lower_child]
  rw [htexts] at hstatements
  exact eval_of_writes (writes_runBody hbegun.parent hstatements)

/-- The name that a template writes the value of, if it does nothing else. -/
def soleName? : Template → Option String
  | ⟨_, [.emit _ (.name _ name)]⟩ => some name
  | _ => none

/-- **The template that is a name alone** comes to the text of what the name stands for. -/
theorem eval_renderTemplate_name {t : Template} {name : String} {v : Value}
    (ht : soleName? t = some name) (hv : context.attribute? Heap.empty name = some v)
    (hdefined : v ≠ .undefined false) (child : Node → String → Inquiry (Except Failure String)) :
    (renderTemplate child t context).eval A M K = .ok (v.shown Heap.empty) := by
  obtain ⟨line, line', hbody⟩ : ∃ line line', t.body = [.emit line (.name line' name)] := by
    unfold soleName? at ht
    split at ht
    · exact ⟨_, _, by rw [Option.some.inj ht]⟩
    · cases ht
  have hbegun := Begun.start t context
  have hname : Writes A M (Begun context) ((Statement.emit line (.name line' name)).run
      (lower child levels) t.name) _ .on _ := writes_name line line' hbegun hv hdefined
  have hall := writes_cons hname fun u hu => writes_nil hu.toReady
  rw [← hbody] at hall
  exact (eval_of_writes (writes_runBody hbegun.parent hall)).trans
    (congrArg Except.ok String.append_empty)

end

end Wrapping

end Scaffold.Template
