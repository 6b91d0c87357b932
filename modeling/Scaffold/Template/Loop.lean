import Scaffold.Template.Lower

/-!
# Assignments and loops

A value is assigned to a target part by part. A loop runs its body in a frame of its own, in which
the names assigned in one round are still there in the next.
-/

namespace Scaffold.Template

mutual

/-- Assigns a value to a target. -/
def Target.assign (home : String) : Target → Value → Run Unit
  | .name n, v => Run.assign n v
  | .parts l ts, v => do
    match v.parts? (← Run.heap) with
    | none => Run.blaming home l (Run.failWith .cannotUnpack "value is not iterable")
    | some items =>
      if items.length = ts.length then assignParts home ts items
      else Run.blaming home l (Run.failWith .cannotUnpack
        ("sequence of wrong length (expected " ++ toString ts.length ++ ", got " ++
          toString items.length ++ ")"))
  | .field l root path name, v => Run.blaming home l do
    let owner ← path.foldlM Run.attributeOf (← Run.lookup root)
    match owner with
    | .space n =>
      let h ← Run.heap
      Run.setCell n (.fields (Entries.put name v (h.fields n)))
    | owner =>
      Run.failWith .invalidOperation ("can only assign to namespaces, not " ++ owner.kind.name)

def assignParts (home : String) : List Target → List Value → Run Unit
  | t :: ts, v :: vs => do
    t.assign home v
    assignParts home ts vs
  | _, _ => pure ()

end

/-- How a statement ends: the next one follows, or the loop around it is left or goes on. -/
inductive Signal
  | on
  | leave
  | skip
deriving DecidableEq, Inhabited

/-- The loop around the present statement. -/
def currentLoop? : Run (Option LoopPlace) := do
  pure ((← get).frames.findSome? Frame.loop)

/-- The depth of a loop that begins here. -/
def loopDepth : Run Nat := do
  match ← currentLoop? with
  | some l =>
    let h ← Run.heap
    pure (if l.repetition.isSome then (h.running l.cell).depth + 1 else 0)
  | none => pure 0

/-- Runs a body for each item, and says in which round it stopped. -/
def rounds (cell : Nat) (each : Value → Run Signal) (previous : Option Value) (index : Nat) :
    List Value → Run Nat
  | [] => pure index
  | v :: r => do
    let now := (← Run.heap).running cell
    Run.setCell cell (.running
      { now with index := index, previous := previous, following := r.head? })
    match ← each v with
    | .leave => pure index
    | _ => rounds cell each (some v) (index + 1) r

/-- Runs a loop in a frame of its own. The result is the round in which it stopped. -/
def runLoop (home : String) (target : Target) (repetition : Option Repetition) (body : Run Signal)
    (items : List Value) : Run Nat := do
  let depth ← loopDepth
  let cell ← Run.newCell (.running ⟨0, items.length, depth, none, none, none⟩)
  Run.inFrame { Frame.on .nothing with loop := some ⟨cell, true, repetition⟩ } <|
    rounds cell (fun v => do
      target.assign home v
      body) none 0 items

/-- The items for which a condition holds. -/
def selected (home : String) (target : Target) (condition : Run Bool) (items : List Value) :
    Run (List Value) := do
  let cell ← Run.newCell (.running ⟨0, items.length, 0, none, none, none⟩)
  Run.inFrame { Frame.on .nothing with loop := some ⟨cell, false, none⟩ } <|
    items.filterM fun v => do
      target.assign home v
      condition

/-- Runs the recursive loop around a call over other items. -/
def recurse (low : Lower) (home : String) (items : Value) : Run Unit := do
  match ← currentLoop? with
  | none => Run.failWith .invalidOperation "cannot recurse outside of loop"
  | some l =>
    match l.repetition with
    | none => Run.failWith .invalidOperation "cannot recurse outside of recursive loop"
    | some r => low.again home r items

end Scaffold.Template
