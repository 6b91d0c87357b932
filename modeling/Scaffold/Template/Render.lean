import Scaffold.Template.Evaluation
import Scaffold.Template.Names
import Scaffold.Template.Statement

/-!
# Rendering

Statements are run by recursion on their structure; `lower` closes the recursion through bodies that
stand elsewhere. As each of these, a parent template apart, adds to the depth of the frames, which is
bounded, the bound on the number of levels is met by no rendering that ends otherwise.
`renderTemplate` gives the text of a template.
-/

namespace Scaffold.Template

/-! ### Statements -/

/-- The value of a macro, which holds on to the names around it that it uses. -/
def macroValue (home : String) (m : Macro) : Run Value := do
  let free := m.freeNames
  let known := free.filter (· != "caller")
  let cell ← if known.isEmpty then Run.newCell (.fields []) else Run.closure
  known.forM (Run.enclose cell)
  pure (.routine home m cell (free.contains "caller"))

/-- Applies filters one after the other. A line is that of what was read last before. -/
def applyLinks (low : Lower) (home : String) (line : Nat) (v : Value) : List Link → Run Value
  | [] => pure v
  | f :: r => do
    let v ← f.apply low home line v
    applyLinks low home (blameLink line f) v r

/-- The line on which the first of some filters begins. -/
def firstLine (line : Nat) : List Link → Nat
  | .mk l _ _ :: _ => l
  | [] => line

/-- The line on which the last part of some filters begins. -/
def lastLine (line : Nat) (links : List Link) : Nat :=
  links.foldl blameLink (firstLine line links)

/-- Writes the value of an expression. The texts of blocks are written as they arise. -/
def showExpression (low : Lower) (home : String) (line : Nat) : Expression → Run Unit
  | .call _ (.name _ "super") [] => Run.blaming home line (callSuper low)
  | .call l (.name _ "loop") [.value e] => do
    let v ← e.eval low home
    Run.blaming home (blameArguments l [.value e]) (recurse low home v)
  | .call l (.attribute (.name _ "self") n) _ => Run.blaming home l (showBlock low n)
  | e => do
    let v ← e.eval low home
    Run.blaming home e.blame (Run.emit v)

/-- Calls something with a macro as the argument `caller`. -/
def callWith (low : Lower) (home : String) (line : Nat) (callee : Expression)
    (args : List Argument) (caller : Macro) : Run Value := do
  let (target, line) ← match callee with
    | .name _ n => pure (Callee.name n, line)
    | .attribute (.name _ "self") n => pure (Callee.block n, line)
    | .attribute e n => do pure (Callee.method (← e.eval low home) n, e.blame)
    | e => do pure (Callee.value (← e.eval low home), e.blame)
  let (vs, named) ← evalArguments low home args
  let c ← macroValue home caller
  Run.blaming home (blameArguments line args) do
    let vs ← withOptions vs (some (named.getD [] ++ [(.ofText "caller", c)]))
    target.call low home vs

/-- The names assigned in the innermost frame, as a map. -/
def exported : Run Value := do
  match (← get).frames with
  | [] => pure (.map [])
  | f :: _ => pure (.map (Member.ofEntries f.locals))

/-- Runs a template that a value names in a frame of its own, without writing, and goes on in it. -/
def visiting {α : Type} (low : Lower) (home : String) (line : Nat) (source : Expression)
    (m : Run α) : Run α :=
  Run.inFrame (Frame.on .nothing) do
    let v ← source.eval low home
    Run.blaming home line (includeAny low false v)
    m

mutual

/-- Runs a statement of a template. -/
def Statement.run (low : Lower) (home : String) : Statement → Run Signal
  | .text s => do
    Run.write s
    pure .on
  | .emit l e => do
    showExpression low home l e
    pure .on
  | .loop _ target items guards recursive body otherwise => do
    let v ← items.eval low home
    let all ← Run.blaming home items.blame (Run.iterated v)
    let chosen ← guards.foldlM (fun vs g =>
      Run.blaming home items.blame <| selected home target
        (do
          let w ← g.eval low home
          Run.blaming home g.blame (Run.truth w))
        vs) all
    let line := guards.foldl (fun _ g => g.blame) items.blame
    let repetition := if recursive then some ⟨line, target, body⟩ else none
    let round ← Run.blaming home line (runLoop home target repetition (runAll low home body) chosen)
    if round = 0 then runAll low home otherwise else pure .on
  | .branch _ t yes no => do
    let v ← t.eval low home
    if ← Run.blaming home t.blame (Run.truth v) then runAll low home yes else runAll low home no
  | .scope l bindings body =>
    Run.blaming home l <| Run.inFrame (Frame.on .nothing) do
      bindings.forM fun b => do
        let v ← b.value.eval low home
        b.target.assign home v
      runAll low home body
  | .assign target e => do
    let v ← e.eval low home
    target.assign home v
    pure .on
  | .capture l target links body => do
    let (signal, t) ← Run.captured false (runAll low home body)
    if signal = .on then
      let v ← Run.textValue t
      target.assign home (← applyLinks low home (firstLine l links) v links)
    pure signal
  | .escaping mode body => do
    let v ← mode.eval low home
    let h ← Run.heap
    let e ← Run.blaming home mode.blame (Run.ofExcept (escapingOf h v))
    let old := (← get).escaping
    modify fun s => { s with escaping := e }
    let signal ← runAll low home body
    modify fun s => { s with escaping := old }
    pure signal
  | .filtering l links body => do
    let (signal, t) ← Run.captured false (runAll low home body)
    if signal = .on then
      let v ← applyLinks low home (firstLine l links) (← Run.textValue t) links
      Run.blaming home (lastLine l links) (Run.emit v)
    pure signal
  | .block l name _ => do
    Run.blaming home l (showBlock low name)
    pure .on
  | .inherit l e => do
    let v ← e.eval low home
    Run.blaming home l (inheritFrom v)
    pure .on
  | .insert l e ignoreMissing => do
    let v ← e.eval low home
    Run.blaming home l (includeAny low ignoreMissing v)
    pure .on
  | .load l source name => do
    let (v, _) ← Run.captured true (Run.blaming home l (visiting low home l source exported))
    Run.assign name v
    pure .on
  | .pick l source names => do
    let (vs, _) ← Run.captured true
      (Run.blaming home l (visiting low home l source (names.mapM fun p => Run.lookup p.name)))
    (names.zip vs).reverse.forM fun (p, v) => Run.assign p.given v
    pure .on
  | .define m => do
    Run.assign m.name (← macroValue home m)
    pure .on
  | .callWith l callee args caller => do
    let v ← callWith low home l callee args caller
    Run.blaming home l (Run.emit v)
    pure .on
  | .perform l callee args => do
    let _ ← (Expression.call l callee args).eval low home
    pure .on
  | .leave => pure .leave
  | .skip => pure .skip

/-- Runs statements in order until one leaves the round of a loop. -/
def runAll (low : Lower) (home : String) : List Statement → Run Signal
  | [] => pure .on
  | s :: r => do
    match ← s.run low home with
    | .on => runAll low home r
    | signal => pure signal

end

/-! ### Templates -/

/-- Runs a body of a template to its end, then its parent if it has named one. -/
def runBody (low : Lower) (home : String) (body : List Statement) : Run Unit := do
  let s ← get
  set { s with parent := none }
  let _ ← runAll low home body
  let r ← get
  match r.parent with
  | some t =>
    set { r with out := r.kept.1, discarding := r.kept.2, parent := none }
    low.body t.name t.body
  | none => pure ()
  modify fun r => { r with parent := s.parent, kept := s.kept }

/-- What lies below an evaluation that may go down so many levels. -/
def lower (child : Node → String → Inquiry (Except Failure String)) : Nat → Lower
  | 0 =>
    { eval := fun _ _ => Run.fail Run.tooDeep
      statements := fun _ _ => Run.fail Run.tooDeep
      body := fun _ _ => Run.fail Run.tooDeep
      again := fun _ _ _ => Run.fail Run.tooDeep
      child := child }
  | n + 1 =>
    { eval := fun home e => e.eval (lower child n) home
      statements := fun home body => do
        let _ ← runAll (lower child n) home body
      body := fun home body => runBody (lower child n) home body
      again := fun home r items => Run.blaming home r.line do
        let vs ← Run.iterated items
        let _ ← runLoop home r.target (some r) (runAll (lower child n) home r.body) vs
      child := child }

/-- How many levels a rendering may go down. -/
def levels : Nat := 10000

/-- The state at the beginning of a template that sees the names of a value. -/
def Machine.start (t : Template) (context : Value) : Machine where
  heap := Heap.empty
  frames := [Frame.on (.given context)]
  outer := 0
  out := ""
  discarding := false
  escaping := .none
  blocks := ownBlocks t
  block := none
  loaded := [t.name]
  parent := none
  kept := ("", false)

/-- The text of a template that sees the names of a value. Children are rendered by `child`. -/
def renderTemplate (child : Node → String → Inquiry (Except Failure String)) (t : Template)
    (context : Value) : Inquiry (Except RenderFault String) := do
  let (r, m) ← (runBody (lower child levels) t.name t.body).run (Machine.start t context)
  pure (r.map fun _ => m.out)

end Scaffold.Template
