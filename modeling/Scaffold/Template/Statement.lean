import Scaffold.Template.Expression

/-!
# Reading templates

Statements, bodies and whole templates. `Template.read` gives the template or the fault that stops
the reading. `Template.blocks` lists the blocks of a template, those inside other statements
included.
-/

namespace Scaffold.Template

namespace Reading

/-- The names that nothing may be assigned to. -/
def fixedNames : List String :=
  ["true", "True", "false", "False", "none", "None", "loop", "self"]

/-- A name that may be assigned to. -/
def freeName : Reading (String × Nat) := do
  let (n, l) ← word
  if fixedNames.contains n then fail else pure (n, l)

/-- A name, or a field reached from it. -/
def field : Reading Target := do
  let (root, l) ← freeName
  let path ← repeated (fun acc => do
    if ← skipMark .dot then pure (.more ((← word).1 :: acc)) else pure (.stop acc)) []
  match path with
  | [] => pure (.name root)
  | last :: before => pure (.field l root before.reverse last)

/-- What a target list ends before. -/
def endsTargets : Option Token → Bool
  | some (.mark .closeParen) => true
  | some .closeVariable => true
  | some .closeBlock => true
  | some (.word "in") => true
  | _ => false

/-- Targets separated by commas; one alone stands for itself, in parentheses for itself too. -/
def targetsWithin : Nat → Reading Target
  | 0 => fail
  | n + 1 => do
    let start ← line
    let (items, several) ← repeated (fun ((acc : List Target), (several : Bool)) => do
      if !acc.isEmpty then expectMark .comma
      if endsTargets (← peek) then pure (.stop (acc.reverse, several))
      else
        let t ← if ← skipMark .openParen then
            let t ← targetsWithin n
            expectMark .closeParen
            pure t
          else do pure (Target.name (← freeName).1)
        if (← peek) = some (.mark .comma) then pure (.more (t :: acc, true))
        else pure (.stop ((t :: acc).reverse, several))) ([], false)
    match items, several with
    | [t], false => pure t
    | ts, _ => pure (.parts start ts)

def targets : Reading Target := do targetsWithin (← budget)

/-- A target in parentheses, or a name. -/
def boundTarget : Reading Target := do
  if ← skipMark .openParen then
    let t ← targets
    expectMark .closeParen
    pure t
  else do pure (.name (← freeName).1)

/-- The target of an assignment, and whether it is a list. -/
def assignTarget : Reading (Target × Bool) := do
  if ← skipMark .openParen then
    let t ← targets
    expectMark .closeParen
    pure (t, true)
  else
    let start ← line
    let first ← field
    let (items, several) ← repeated (fun ((acc : List Target), (several : Bool)) => do
      if ← skipMark .comma then
        if (← peek) = some (.mark .assign) then pure (.stop (acc.reverse, true))
        else pure (.more ((← field) :: acc, true))
      else pure (.stop (acc.reverse, several))) ([first], false)
    if several then pure (.parts start items, true) else pure (first, false)

/-- How the parts of a statement are read: expressions, expressions that are no conditionals, and
bodies up to a tag that begins with one of some words. -/
structure Parts where
  full : Reading Expression
  plain : Reading Expression
  body : List String → Reading (List Statement)

def endTag : Reading Unit := expect .closeBlock

/-- A body with the word of the tag that ends it, the only thing in that tag. -/
def bodyTo (p : Parts) (word : String) : Reading (List Statement) := do
  endTag
  let b ← p.body [word]
  let _ ← next
  pure b

/-- Filters up to the end of the tag, at least one. -/
def linkChain (p : Parts) : Reading (List Link) := do
  let links ← repeated (fun acc => do
    if (← peek) = some .closeBlock then pure (.stop acc)
    else
      if !acc.isEmpty then expectMark .pipe
      pure (.more ((← link p.full p.plain) :: acc))) []
  if links.isEmpty then fail else pure links.reverse

/-- The remark that says whether a template that is brought in sees the names of this one. It
always does. -/
def skipContext : Reading Bool := do
  let found ← if ← skipWord "without" then pure true else skipWord "with"
  if found then expectWord "context"
  pure found

/-- Reads in a state in which loops and macros are as given, and restores it. -/
def inside {α : Type} (loops : LoopReach) (inMacro : Bool) (m : Reading α) : Reading α := do
  let s ← get
  set { s with loops := loops, inMacro := inMacro }
  let a ← m
  modify fun t => { t with loops := s.loops, inMacro := s.inMacro }
  pure a

def loopStatement (p : Parts) (start : Nat) : Reading Statement := do
  let s ← get
  inside .body s.inMacro do
    let target ← targets
    expectWord "in"
    let items ← p.plain
    let guards ← if ← skipWord "if" then do pure [← p.full] else pure []
    let recursive ← skipWord "recursive"
    endTag
    let body ← p.body ["endfor", "else"]
    let otherwise ← if ← skipWord "else" then do
        endTag
        inside s.loops.withoutItems s.inMacro (p.body ["endfor"])
      else pure []
    let _ ← next
    pure (.loop start target items guards recursive body otherwise)

/-- The rest of a branching statement, from its test on. -/
def branchFrom (p : Parts) (start : Nat) : Nat → Reading Statement
  | 0 => fail
  | n + 1 => do
    let test ← p.full
    endTag
    let yes ← p.body ["endif", "else", "elif"]
    match ← next with
    | some ⟨.word "else", _⟩ =>
      endTag
      let no ← p.body ["endif"]
      let _ ← next
      pure (.branch start test yes no)
    | some ⟨.word "elif", l⟩ => do pure (.branch start test yes [← branchFrom p l n])
    | _ => pure (.branch start test yes [])

def scopeStatement (p : Parts) (start : Nat) : Reading Statement := do
  let bindings ← repeated (fun acc => do
    if (← peek) = some .closeBlock then pure (.stop acc.reverse)
    else
      if !acc.isEmpty then expectMark .comma
      let t ← boundTarget
      expectMark .assign
      pure (.more (Binding.mk t (← p.full) :: acc))) []
  pure (.scope start bindings (← bodyTo p "endwith"))

/-- An assignment of a value, or of the text of a body. -/
def assignStatement (p : Parts) (start : Nat) : Reading Statement := do
  let (target, isList) ← assignTarget
  let next ← peek
  if !isList && (next = some .closeBlock || next = some (.mark .pipe)) then
    let links ← if ← skipMark .pipe then linkChain p else pure []
    pure (.capture start target links (← bodyTo p "endset"))
  else
    expectMark .assign
    pure (.assign target (← p.full))

def escapingStatement (p : Parts) : Reading Statement := do
  let e ← p.full
  pure (.escaping e (← bodyTo p "endautoescape"))

def filteringStatement (p : Parts) (start : Nat) : Reading Statement := do
  let links ← linkChain p
  pure (.filtering start links (← bodyTo p "endfilter"))

def blockStatement (p : Parts) (start : Nat) : Reading Statement := do
  let s ← get
  if s.inMacro then fail
  inside .outside s.inMacro do
    let (name, _) ← word
    if (← get).blocks.contains name then fail
    modify fun t => { t with blocks := name :: t.blocks }
    let body ← bodyTo p "endblock"
    match ← peek with
    | some (.word w) =>
      if w = name then
        let _ ← next
        pure (.block start name body)
      else fail
    | _ => pure (.block start name body)

def insertStatement (p : Parts) (start : Nat) : Reading Statement := do
  let source ← p.full
  let ignoreMissing ← if ← skipWord "ignore" then do
      expectWord "missing"
      pure true
    else pure false
  let _ ← skipContext
  pure (.insert start source ignoreMissing)

def loadStatement (p : Parts) (start : Nat) : Reading Statement := do
  let source ← p.full
  expectWord "as"
  let (name, _) ← freeName
  let _ ← skipContext
  pure (.load start source name)

def pickStatement (p : Parts) (start : Nat) : Reading Statement := do
  let source ← p.full
  expectWord "import"
  let names ← repeated (fun (acc : List Picked) => do
    if (← peek) = some .closeBlock then pure (.stop acc.reverse)
    else if !acc.isEmpty && (← skipContext) then pure (.stop acc.reverse)
    else
      if !acc.isEmpty then expectMark .comma
      let (name, _) ← freeName
      let (given, _) ← if ← skipWord "as" then freeName else pure (name, 0)
      pure (.more (⟨name, given⟩ :: acc))) []
  pure (.pick start source names)

/-- Parameters up to the closing parenthesis. One behind a parameter with a default value has a
default value too. -/
def parameters (p : Parts) : Reading (List String × List Expression) :=
  repeated (fun ((ps : List String), (ds : List Expression)) => do
    let stop := Progress.stop (ps.reverse, ds.reverse)
    if ← skipMark .closeParen then pure stop
    else
      if !ps.isEmpty then expectMark .comma
      if !ps.isEmpty && (← skipMark .closeParen) then pure stop
      else
        let (name, _) ← freeName
        if ← skipMark .assign then pure (.more (name :: ps, (← p.full) :: ds))
        else
          if !ds.isEmpty then fail
          pure (.more (name :: ps, ds))) ([], [])

def macroBody (p : Parts) (ending : String) : Reading (List Statement) :=
  inside .outside true (bodyTo p ending)

def defineStatement (p : Parts) (start : Nat) : Reading Statement := do
  let (name, _) ← word
  expectMark .openParen
  let (ps, ds) ← parameters p
  pure (.define (.mk start name ps ds (← macroBody p "endmacro")))

def callStatement (p : Parts) (start : Nat) : Reading Statement := do
  let (ps, ds) ← if ← skipMark .openParen then parameters p else pure ([], [])
  match ← p.full with
  | .call l callee args =>
    pure (.callWith l callee args (.mk start "caller" ps ds (← macroBody p "endcall")))
  | _ => fail

def performStatement (p : Parts) : Reading Statement := do
  match ← p.full with
  | .call l callee args => pure (.perform l callee args)
  | _ => fail

/-- A statement that leaves the round of a loop: in the alternative to a loop that is in no other
loop, it does nothing. -/
def skipStatement : Reading Statement := do
  match (← get).loops with
  | .outside => fail
  | .alternative => pure (.text "")
  | .body => pure .skip

def leaveStatement : Reading Statement := do
  match (← get).loops with
  | .outside => fail
  | _ => pure .leave

/-- A statement, read from its first word on. -/
def statementOver (p : Parts) : Reading Statement := do
  let t ← taken
  match t.token with
  | .word "for" => loopStatement p t.line
  | .word "if" => branchFrom p t.line (← budget)
  | .word "with" => scopeStatement p t.line
  | .word "set" => assignStatement p t.line
  | .word "autoescape" => escapingStatement p
  | .word "filter" => filteringStatement p t.line
  | .word "block" => blockStatement p t.line
  | .word "extends" => do pure (.inherit t.line (← p.full))
  | .word "include" => insertStatement p t.line
  | .word "import" => loadStatement p t.line
  | .word "from" => pickStatement p t.line
  | .word "macro" => defineStatement p t.line
  | .word "call" => callStatement p t.line
  | .word "do" => performStatement p
  | .word "continue" => skipStatement
  | .word "break" => leaveStatement
  | _ => fail

/-- Text, expressions and statements up to a tag that begins with one of these words, of which only
the opening is taken. It also ends at the end of the template. -/
def bodyOver (full : Reading Expression) (statement : Reading Statement) (ends : List String) :
    Reading (List Statement) :=
  repeated (fun acc => do
    match ← next with
    | none => pure (.stop acc.reverse)
    | some ⟨.text s, _⟩ => pure (.more (.text s :: acc))
    | some ⟨.openVariable, l⟩ =>
      let e ← full
      expect .closeVariable
      pure (.more (.emit l e :: acc))
    | some ⟨.openBlock, _⟩ =>
      let isEnd := match ← peek with
        | some (.word w) => ends.contains w
        | _ => false
      if isEnd then pure (.stop acc.reverse)
      else
        let s ← statement
        expect .closeBlock
        pure (.more (s :: acc))
    | some _ => fail) []

/-- A statement with at most so many levels of nesting. -/
def statementWithin : Nat → Reading Statement
  | 0 => fail
  | d + 1 =>
    statementOver ⟨expressionWithin d true, expressionWithin d false,
      bodyOver (expressionWithin d true) (statementWithin d)⟩

end Reading

/-- Reads a template, with the name that faults in it are reported under. -/
def read (name source : String) : Except RenderFault Template :=
  let stream := scan source
  let start : ReadState := ⟨stream.tokens, stream.fault, 1, .outside, false, []⟩
  let d := Reading.depthLimit
  match Reading.bodyOver (Reading.expressionWithin d true) (Reading.statementWithin d) [] start with
  | .ok (body, _) => .ok ⟨name, body⟩
  | .error f => .error (.mk f.fault.kind none (some (name, f.line)) .none)

mutual

/-- The blocks in a statement, an outer one before those inside it. -/
def Statement.blocks : Statement → List (String × List Statement)
  | .loop _ _ _ _ _ body otherwise => blocksOf body ++ blocksOf otherwise
  | .branch _ _ yes no => blocksOf yes ++ blocksOf no
  | .scope _ _ body => blocksOf body
  | .capture _ _ _ body => blocksOf body
  | .escaping _ body => blocksOf body
  | .filtering _ _ body => blocksOf body
  | .block _ name body => (name, body) :: blocksOf body
  | _ => []

def blocksOf : List Statement → List (String × List Statement)
  | [] => []
  | s :: r => s.blocks ++ blocksOf r

end

def blocks (t : Template) : List (String × List Statement) := blocksOf t.body

end Scaffold.Template
