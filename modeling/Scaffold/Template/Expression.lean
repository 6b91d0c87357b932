import Scaffold.Template.Reading

/-!
# Reading expressions

From the loosest to the tightest binding: conditional, `or`, `and`, `not`, comparisons, sums,
concatenation, products, powers, and signs. A sign binds tighter than what follows its operand:
attributes, items, calls, filters and tests. All binary operators associate to the left.
-/

namespace Scaffold.Template.Reading

/-- How deeply statements and expressions may be nested. -/
def depthLimit : Nat := 150

/-- Operands joined by operators of one kind, from left to right. -/
def chain (operand : Reading Expression)
    (join? : Token → Option (Expression → Expression → Expression)) : Reading Expression := do
  repeated (fun left => do
    match (← peek).bind join? with
    | some join =>
      let _ ← next
      pure (.more (join left (← operand)))
    | none => pure (.stop left)) (← operand)

/-- An operand behind any number of signs. -/
def behindSigns (sign : Token) (op : UnaryOperator) (operand : Reading Expression) :
    Reading Expression := do
  let lines ← repeated (fun ls => do
    if (← peek) = some sign then pure (.more ((← taken).line :: ls))
    else pure (.stop ls)) []
  let e ← operand
  pure (lines.foldl (fun e l => .unary l op e) e)

def comparison? : Token → Option BinaryOperator
  | .mark .eq => some .eq
  | .mark .ne => some .ne
  | .mark .lt => some .lt
  | .mark .le => some .le
  | .mark .gt => some .gt
  | .mark .ge => some .ge
  | .word "in" => some .member
  | _ => none

def sum? : Token → Option BinaryOperator
  | .mark .plus => some .add
  | .mark .minus => some .sub
  | _ => none

def concat? : Token → Option BinaryOperator
  | .mark .tilde => some .concat
  | _ => none

def product? : Token → Option BinaryOperator
  | .mark .times => some .mul
  | .mark .over => some .div
  | .mark .floorOver => some .floorDiv
  | .mark .percent => some .rem
  | _ => none

def power? : Token → Option BinaryOperator
  | .mark .power => some .power
  | _ => none

def binaryChain (operand : Reading Expression) (op? : Token → Option BinaryOperator) :
    Reading Expression :=
  chain operand fun t => (op? t).map fun op => .binary op

/-- Operands joined by comparisons, of which `not in` consists of two words. -/
def comparisons (operand : Reading Expression) : Reading Expression := do
  repeated (fun left => do
    match ← peek with
    | some (.word "not") =>
      let l := (← taken).line
      expectWord "in"
      pure (.more (.unary l .not (.binary .member left (← operand))))
    | t =>
      match t.bind comparison? with
      | some op =>
        let _ ← next
        pure (.more (.binary op left (← operand)))
      | none => pure (.stop left)) (← operand)

/-- A conditional: the alternative may be left out, and is itself a conditional. -/
def conditional (operand : Reading Expression) : Nat → Reading Expression
  | 0 => fail
  | n + 1 => do
    let start ← line
    repeated (fun yes => do
      if ← skipWord "if" then
        let test ← operand
        let no ← if ← skipWord "else" then conditional operand n
          else pure (.literal start .nothing)
        pure (.more (.conditional start test yes no))
      else pure (.stop yes)) (← operand)

/-- An argument of a call: a value, a named value, or values to be spread. Named values are read by
`plain`, which leaves out conditionals. -/
def argument (full plain : Reading Expression) (named : Bool) : Reading (Argument × Bool) := do
  if ← skipMark .power then pure (.spreadNamed (← full), true)
  else if ← skipMark .times then pure (.spread (← full), named)
  else
    let e ← full
    match e with
    | .name _ n =>
      if ← skipMark .assign then pure (.named n (← plain), true)
      else if named then fail
      else pure (.value e, false)
    | _ => if named then fail else pure (.value e, false)

/-- The most arguments that a call may have. -/
def argumentLimit : Nat := 2000

def arguments (full plain : Reading Expression) : Reading (List Argument) := do
  expectMark .openParen
  repeated (fun ((acc : List Argument), (named : Bool)) => do
    if ← skipMark .closeParen then pure (.stop acc.reverse)
    else
      if !acc.isEmpty then expectMark .comma
      if !acc.isEmpty && (← skipMark .closeParen) then pure (.stop acc.reverse)
      else
        let (a, named) ← argument full plain named
        if argumentLimit ≤ acc.length then fail
        pure (.more (a :: acc, named))) ([], false)

/-- Arguments, if there is an opening parenthesis. -/
def argumentsIfAny (full plain : Reading Expression) : Reading (List Argument) := do
  if (← peek) = some (.mark .openParen) then arguments full plain else pure []

/-- One bound of a slice, unless one of the marks stands in its place. -/
def bound (full : Reading Expression) (start : Nat) (stops : List Mark) : Reading Expression := do
  match ← peek with
  | some (.mark m) =>
    if stops.contains m then pure (.literal start .nothing) else full
  | _ => full

/-- An item or a slice, read from behind the opening bracket. -/
def subscript (full : Reading Expression) (start : Nat) (operand : Expression) :
    Reading Expression := do
  let first ← bound full start [.colon]
  if ← skipMark .colon then
    let stop ← bound full start [.closeBracket, .colon]
    let step ← if ← skipMark .colon then bound full start [.closeBracket]
      else pure (.literal start .nothing)
    expectMark .closeBracket
    pure (.slice operand first stop step)
  else
    expectMark .closeBracket
    pure (.item operand first)

/-- What follows an operand: attributes, items, slices and calls. -/
def followed (full plain : Reading Expression) (start : Nat) (e : Expression) :
    Reading Expression :=
  repeated (fun e => do
    match ← peek with
    | some (.mark .dot) =>
      let _ ← next
      let (name, _) ← word
      pure (.more (.attribute e name))
    | some (.mark .openBracket) =>
      let _ ← next
      pure (.more (← subscript full start e))
    | some (.mark .openParen) =>
      pure (.more (.call start e (← arguments full plain)))
    | _ => pure (.stop e)) e

/-- Whether a token can begin an argument of a test that stands without parentheses. -/
def beginsArgument : Token → Bool
  | .word w => !(["and", "or", "else", "is"] : List String).contains w
  | .quoted _ => true
  | .int _ => true
  | .real _ => true
  | .mark .plus => true
  | .mark .minus => true
  | .mark .openBracket => true
  | .mark .openBrace => true
  | _ => false

/-- The name of a filter with its arguments. -/
def link (full plain : Reading Expression) : Reading Link := do
  let (name, l) ← word
  pure (.mk l name (← argumentsIfAny full plain))

/-- The name of a test with its arguments. -/
def testLink (full plain signed : Reading Expression) : Reading Link := do
  let (name, l) ← word
  match ← peek with
  | some (.mark .openParen) => pure (.mk l name (← arguments full plain))
  | some t =>
    if beginsArgument t then
      let start ← line
      pure (.mk l name [.value (← followed full plain start (← signed))])
    else pure (.mk l name [])
  | none => pure (.mk l name [])

/-- Filters and tests behind an operand. -/
def refined (full plain signed : Reading Expression) (e : Expression) : Reading Expression :=
  repeated (fun e => do
    match ← peek with
    | some (.mark .pipe) =>
      let _ ← next
      pure (.more (.filtered e (← link full plain)))
    | some (.word "is") =>
      let _ ← next
      let start ← line
      let negated ← skipWord "not"
      let t := Expression.tested e (← testLink full plain signed)
      pure (.more (if negated then .unary start .not t else t))
    | _ => pure (.stop e)) e

/-- A list in parentheses, or an expression in parentheses. -/
def parenthesized (full : Reading Expression) (start : Nat) : Reading Expression := do
  if ← skipMark .closeParen then pure (.list start [])
  else
    let e ← full
    if ← skipMark .comma then
      let items ← repeated (fun acc => do
        if ← skipMark .closeParen then pure (.stop acc.reverse)
        else
          let e ← full
          if ← skipMark .comma then pure (.more (e :: acc))
          else
            expectMark .closeParen
            pure (.stop (e :: acc).reverse)) [e]
      pure (.list start items)
    else
      expectMark .closeParen
      pure e

def entry (full : Reading Expression) : Reading Entry := do
  let k ← full
  expectMark .colon
  pure (.mk k (← full))

/-- Quoted texts that stand side by side are one text. -/
def quotedTexts (s : String) : Reading String :=
  repeated (fun s => do
    match ← peek with
    | some (.quoted t) =>
      let _ ← next
      pure (.more (s ++ t))
    | _ => pure (.stop s)) s

/-- The names that stand for values of their own. -/
def constant? : String → Option Literal
  | "true" => some (.bool true)
  | "True" => some (.bool true)
  | "false" => some (.bool false)
  | "False" => some (.bool false)
  | "none" => some .none
  | "None" => some .none
  | _ => none

/-- A name, a constant, or something in brackets. -/
def primary (full : Reading Expression) : Reading Expression := do
  let t ← taken
  match t.token with
  | .word w =>
    match constant? w with
    | some c => pure (.literal t.line c)
    | none => pure (.name t.line w)
  | .quoted s => pure (.literal t.line (.text (← quotedTexts s)))
  | .int n => pure (.literal t.line (.int n))
  | .real x => pure (.literal t.line (.real x))
  | .mark .openParen => parenthesized full t.line
  | .mark .openBracket => pure (.list t.line (← separated full .closeBracket))
  | .mark .openBrace => pure (.dictionary t.line (← separated (entry full) .closeBrace))
  | _ => fail

/-- An expression, given how expressions inside brackets are read and those inside arguments;
the flag says whether it may be a conditional. -/
def expressionOver (bracketed nested : Bool → Reading Expression) (conditionals : Bool) :
    Reading Expression := do
  let full := nested true
  let plain := nested false
  let signed := behindSigns (.mark .minus) .negate (primary (bracketed true))
  let unary : Reading Expression := do
    let start ← line
    refined full plain signed (← followed full plain start (← signed))
  let power := binaryChain unary power?
  let product := binaryChain power product?
  let concat := binaryChain product concat?
  let sum := binaryChain concat sum?
  let negation := behindSigns (.word "not") .not (comparisons sum)
  let conjunction := chain negation fun t => if t = .word "and" then some .and else none
  let disjunction := chain conjunction fun t => if t = .word "or" then some .or else none
  if conditionals then conditional disjunction (← budget) else disjunction

/-- An expression with at most so many levels of nesting. Brackets count for two. -/
def expressionWithin : Nat → Bool → Reading Expression
  | d + 2, c => expressionOver (expressionWithin d) (expressionWithin (d + 1)) c
  | _, _ => fail

end Scaffold.Template.Reading
