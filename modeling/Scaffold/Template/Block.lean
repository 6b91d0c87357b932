import Scaffold.Template.Lower

/-!
# Blocks and other templates

A template with a parent hands its blocks on to it. The versions of a block are stacked, the
innermost template's first; `callSuper` runs the version that the present one replaces.
-/

namespace Scaffold.Template

/-- The blocks of a template, each with its one version. -/
def ownBlocks (t : Template) : List (String × BlockStack) :=
  t.blocks.map fun (n, b) => (n, ⟨[⟨t.name, b⟩], 0⟩)

/-- Runs the version of a block that is in use. -/
def callBlock (low : Lower) (name : String) : Run Unit := do
  let s ← get
  match s.blocks.lookup name with
  | none => Run.failWith .unknownBlock ("block '" ++ name ++ "' not found")
  | some b =>
    let p := b.versions[b.level]?.getD ⟨"", []⟩
    set { s with block := some name }
    Run.inFrame (Frame.on .nothing) (low.body p.home p.body)
    modify fun r => { r with block := s.block }

/-- Runs a block where it stands, unless a parent will do so or its text would be lost. -/
def showBlock (low : Lower) (name : String) : Run Unit := do
  let s ← get
  if s.parent.isNone && !s.discarding then callBlock low name

def setLevel (name : String) (level : Nat) : Run Unit := modify fun s =>
  { s with blocks := s.blocks.map fun (n, b) =>
      if n = name then (n, { b with level := level }) else (n, b) }

/-- Runs the version of the present block that it replaces. -/
def callSuper (low : Lower) : Run Unit := do
  let s ← get
  match s.block with
  | none => Run.failWith .invalidOperation "cannot super outside of block"
  | some name =>
    let b := (s.blocks.lookup name).getD default
    match b.versions[b.level + 1]? with
    | none => Run.failWith .invalidOperation "no parent block exists"
    | some p =>
      setLevel name (b.level + 1)
      tryCatch (Run.inFrame (Frame.on .nothing) (low.body p.home p.body)) fun f =>
        throw ((RenderFault.of .evalBlock "error in super block").causedBy (.fault f))
      setLevel name b.level

def notText : RenderFault := .of .invalidOperation "template name was not a string"

def template (name : String) : Run Template := do Run.ofExcept (← Run.ask (.templateOf name))

/-- Notes the parent of the present template, whose versions of blocks come behind those that are
known. What the present template writes from here on is lost. -/
def inheritFrom (v : Value) : Run Unit := do
  let s ← get
  if s.parent.isSome then
    Run.failWith .invalidOperation "tried to extend a second time in a template"
  match v with
  | .text name _ =>
    if s.loaded.contains name then
      Run.failWith .invalidOperation
        ("cycle in template inheritance. " ++ Text.quoted name ++
          " was referenced more than once")
    let t ← template name
    let add (bs : List (String × BlockStack)) (own : String × BlockStack) :
        List (String × BlockStack) :=
      match bs.lookup own.1 with
      | some b => Entries.insert own.1 { b with versions := b.versions ++ own.2.versions } bs
      | none => bs ++ [own]
    modify fun s => { s with
      loaded := t.name :: s.loaded
      blocks := (ownBlocks t).foldl add s.blocks
      parent := some t
      kept := (s.out, s.discarding)
      out := ""
      discarding := true }
  | _ => Run.fail notText

/-- What including a template adds to the depth. -/
def includeCost : Nat := 10

/-- Runs a template in the present frame. -/
def includeTemplate (low : Lower) (t : Template) : Run Unit := do
  let s ← get
  set { s with escaping := .none, blocks := ownBlocks t, outer := s.outer + includeCost }
  Run.checkDepth
  tryCatch (low.body t.name t.body) fun f =>
    throw ((RenderFault.of .badInclude ("error in " ++ Text.quoted t.name)).causedBy (.fault f))
  modify fun r => { r with
    escaping := s.escaping, blocks := s.blocks, outer := s.outer, loaded := s.loaded }

/-- The fault when none of some templates exists. -/
def noneFound (h : Heap) (tried : List Value) : RenderFault :=
  match tried with
  | [v] => .of .templateNotFound ("tried to include non-existing template " ++ (v.datum h).inner)
  | vs => .of .templateNotFound
      ("tried to include one of multiple templates, none of which existed " ++
        ((Value.list vs).datum h).inner)

/-- Runs the first template of a list that exists. -/
def includeFirst (low : Lower) (ignoreMissing : Bool) (tried : List Value) :
    List Value → Run Unit
  | [] => do
    if !tried.isEmpty && !ignoreMissing then Run.fail (noneFound (← Run.heap) tried.reverse)
  | v :: r => do
    match v with
    | .text name _ =>
      match ← Run.ask (.templateOf name) with
      | .ok t => includeTemplate low t
      | .error f =>
        if f.kind = .templateNotFound then includeFirst low ignoreMissing (v :: tried) r
        else Run.fail f
    | _ => Run.fail notText

/-- Runs the template that a value names, or the first of a list that exists. -/
def includeAny (low : Lower) (ignoreMissing : Bool) (v : Value) : Run Unit := do
  includeFirst low ignoreMissing [] ((v.parts? (← Run.heap)).getD [v])

/-- How values are written that a mode asks for. -/
def escapingOf (h : Heap) (v : Value) : Except RenderFault Escaping :=
  match v with
  | .text "html" _ => .ok .html
  | .text "json" _ => .ok .json
  | .text "none" _ => .ok .none
  | .text .. => .error (.of .invalidOperation "invalid value to autoescape tag")
  | v => .ok (if (v.datum h).same (.bool true) then .html else .none)

end Scaffold.Template
