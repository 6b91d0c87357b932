import Scaffold.Template.Basic
import Scaffold.Template.Token

/-!
# Reading tokens

`Reading α` reads an `α` from the tokens of a template. A fault of form is blamed on the line of
the token that was taken last. The state also holds what decides which statements are
allowed: whether a loop or a macro is being read, and the names of the blocks so far.
-/

namespace Scaffold.Template

/-- Why a template cannot be read. -/
structure ReadFault where
  fault : TextFault
  line : Nat
deriving DecidableEq, Inhabited

/-- Where a statement stands: in no loop, in what a loop does without items, or in a loop's body. -/
inductive LoopReach
  | outside
  | alternative
  | body
deriving DecidableEq, Inhabited

/-- Where the alternative to a loop stands. -/
def LoopReach.withoutItems : LoopReach → LoopReach
  | .body => .body
  | _ => .alternative

structure ReadState where
  tokens : List PlacedToken
  fault : Option TokenFault
  last : Nat
  loops : LoopReach
  inMacro : Bool
  blocks : List String
deriving Inhabited

abbrev Reading := StateT ReadState (Except ReadFault)

namespace Reading

variable {α σ : Type}

/-- The fault of form at the token taken last. -/
def fail : Reading α := fun s => .error ⟨.form, s.last⟩

/-- The next token, which is not taken. -/
def peek : Reading (Option Token) := fun s =>
  match s.tokens, s.fault with
  | t :: _, _ => .ok (some t.token, s)
  | [], some f => .error ⟨f.fault, f.line.getD s.last⟩
  | [], none => .ok (none, s)

/-- Takes the next token. -/
def next : Reading (Option PlacedToken) := fun s =>
  match s.tokens, s.fault with
  | t :: r, _ => .ok (some t, { s with tokens := r, last := t.line })
  | [], some f => .error ⟨f.fault, f.line.getD s.last⟩
  | [], none => .ok (none, s)

/-- The line of the next token, or of the last if there is none. -/
def line : Reading Nat := fun s =>
  match s.tokens with
  | t :: _ => .ok (t.line, s)
  | [] => .ok (s.last, s)

/-- Takes the next token, which has to be there. -/
def taken : Reading PlacedToken := do
  match ← next with
  | some t => pure t
  | none => fail

/-- Takes a token that has to be this one. -/
def expect (t : Token) : Reading Unit := do
  if (← taken).token = t then pure () else fail

/-- Takes the next token if it is this one. -/
def skip (t : Token) : Reading Bool := do
  if (← peek) = some t then
    let _ ← next
    pure true
  else pure false

def expectMark (m : Mark) : Reading Unit := expect (.mark m)

def expectWord (w : String) : Reading Unit := expect (.word w)

def skipMark (m : Mark) : Reading Bool := skip (.mark m)

def skipWord (w : String) : Reading Bool := skip (.word w)

/-- Takes a name, with its line. -/
def word : Reading (String × Nat) := do
  let t ← taken
  match t.token with
  | .word w => pure (w, t.line)
  | _ => fail

/-- What a step of a repetition comes to. -/
inductive Progress (σ α : Type)
  | more (s : σ)
  | stop (a : α)

/-- Repeats a step until it stops, at most `n` times. -/
def iterate (step : σ → Reading (Progress σ α)) : Nat → σ → Reading α
  | 0, _ => fail
  | n + 1, s => do
    match ← step s with
    | .more s => iterate step n s
    | .stop a => pure a

/-- A bound on the number of steps that each take a token. -/
def budget : Reading Nat := fun s => .ok (s.tokens.length + 2, s)

/-- Repeats a step that takes a token each time until it stops. -/
def repeated (step : σ → Reading (Progress σ α)) (s : σ) : Reading α := do
  iterate step (← budget) s

/-- Things separated by commas up to a closing mark, which is taken. A comma may stand last. -/
def separated (item : Reading α) (close : Mark) : Reading (List α) :=
  repeated (fun acc => do
    if ← skipMark close then pure (.stop acc.reverse)
    else
      if !acc.isEmpty then expectMark .comma
      if !acc.isEmpty && (← skipMark close) then pure (.stop acc.reverse)
      else pure (.more ((← item) :: acc))) []

end Reading

end Scaffold.Template
