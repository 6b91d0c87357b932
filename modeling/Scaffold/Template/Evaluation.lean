import Scaffold.Template.Call
import Scaffold.Template.Filter.Table

/-!
# The values of expressions

Operands are evaluated from left to right. A fault is blamed on the line of the operand read last.
-/

namespace Scaffold.Template

mutual

/-- The value of an expression in a template. -/
def Expression.eval (low : Lower) (home : String) : Expression → Run Value
  | .literal _ c => pure (.ofLiteral c)
  | .name _ n => Run.lookup n
  | .list _ items => do pure (.list (← evalItems low home items))
  | .dictionary _ es => do
    let ms ← evalEntries low home es
    pure (.map (Member.putAll (← Run.heap) ms))
  | .unary l op e => do
    let v ← e.eval low home
    match op with
    | .not => do pure (.bool !(← Run.blaming home e.blame (Run.truth v)))
    | .negate => Run.blaming home l (Run.ofExcept v.negate)
  | .binary op a b => do
    let v ← a.eval low home
    let w ← b.eval low home
    Run.blaming home b.blame do Run.ofExcept (Value.binary (← Run.heap) op v w)
  | .and a b => do
    let v ← a.eval low home
    if ← Run.blaming home a.blame (Run.truth v) then b.eval low home else pure v
  | .or a b => do
    let v ← a.eval low home
    if ← Run.blaming home a.blame (Run.truth v) then pure v else b.eval low home
  | .conditional _ t yes no => do
    let v ← t.eval low home
    if ← Run.blaming home t.blame (Run.truth v) then yes.eval low home else no.eval low home
  | .attribute e n => do
    let v ← e.eval low home
    Run.blaming home e.blame (Run.attributeOf v n)
  | .item e k => do
    let v ← e.eval low home
    let w ← k.eval low home
    Run.blaming home k.blame (Run.itemOf v w)
  | .slice e a b c => do
    let v ← e.eval low home
    let start ← a.eval low home
    let stop ← b.eval low home
    let step ← c.eval low home
    Run.blaming home (Expression.slice e a b c).blame do
      Run.ofExcept (Value.slice (← Run.heap) v start stop step)
  | .filtered e f => do
    let v ← e.eval low home
    f.apply low home e.blame v
  | .tested e t => do
    let v ← e.eval low home
    t.test low home e.blame v
  | .call l (.name _ n) args => do
    let vs ← evalArguments low home args
    Run.blaming home (blameArguments l args) do
      (Callee.name n).call low home (← withOptions vs.1 vs.2)
  | .call l (.attribute (.name _ "self") n) _ =>
    Run.blaming home l ((Callee.block n).call low home [])
  | .call _ (.attribute e n) args => do
    let v ← e.eval low home
    let vs ← evalArguments low home args
    Run.blaming home (blameArguments e.blame args) do
      (Callee.method v n).call low home (← withOptions vs.1 vs.2)
  | .call _ e args => do
    let v ← e.eval low home
    let vs ← evalArguments low home args
    Run.blaming home (blameArguments e.blame args) do
      (Callee.value v).call low home (← withOptions vs.1 vs.2)

def evalItems (low : Lower) (home : String) : List Expression → Run (List Value)
  | [] => pure []
  | e :: r => do
    let v ← e.eval low home
    pure (v :: (← evalItems low home r))

def evalEntries (low : Lower) (home : String) : List Entry → Run (List (Value × Value))
  | [] => pure []
  | .mk k e :: r => do
    let key ← k.eval low home
    let v ← e.eval low home
    pure ((key, v) :: (← evalEntries low home r))

/-- Applies a filter with its arguments. -/
def Link.apply (low : Lower) (home : String) (line : Nat) (v : Value) : Link → Run Value
  | .mk _ n args => do
    let vs ← evalArguments low home args
    Run.blaming home (blameArguments line args) do
      Filter.apply n (v :: (← withOptions vs.1 vs.2))

/-- Asks a test with its arguments. -/
def Link.test (low : Lower) (home : String) (line : Nat) (v : Value) : Link → Run Value
  | .mk _ n args => do
    let vs ← evalArguments low home args
    Run.blaming home (blameArguments line args) do
      pure (.bool (← Filter.applyTest n (v :: (← withOptions vs.1 vs.2))))

/-- The arguments of a call, and those that are named if there are any. -/
def evalArguments (low : Lower) (home : String) (args : List Argument) :
    Run (List Value × Option (List (Value × Value))) := do
  let vs ← evalPlain low home args
  let named ← evalNamed low home args
  pure (vs, if args.any Argument.isNamed then some named else none)

def evalPlain (low : Lower) (home : String) : List Argument → Run (List Value)
  | [] => pure []
  | .value e :: r => do
    let v ← e.eval low home
    pure (v :: (← evalPlain low home r))
  | .spread e :: r => do
    let v ← e.eval low home
    let vs ← Run.blaming home e.blame do
      match v.items? (← Run.heap) with
      | some vs => pure vs
      | none => Run.failWith .invalidOperation (v.kind.name ++ " is not iterable")
    pure (vs ++ (← evalPlain low home r))
  | .named .. :: r => evalPlain low home r
  | .spreadNamed _ :: r => evalPlain low home r

def evalNamed (low : Lower) (home : String) : List Argument → Run (List (Value × Value))
  | [] => pure []
  | .named n e :: r => do
    let v ← e.eval low home
    pure ((.ofText n, v) :: (← evalNamed low home r))
  | .spreadNamed e :: r => do
    let v ← e.eval low home
    let ms ← Run.blaming home e.blame (spreadMembers v)
    pure (ms ++ (← evalNamed low home r))
  | .value _ :: r => evalNamed low home r
  | .spread _ :: r => evalNamed low home r

end

end Scaffold.Template
