import Scaffold.Proofs.Template.Rendered

/-!
# Templates that are a name alone

Every level of expressions passes on an operand behind which no operator stands (`chain_alone`,
`followed_alone` and so on), so that a name between the marks of a variable is read as just this name
(`read_nameSource`). It stands for what the template sees under it, or for one of the four functions
that every template has, or for nothing, which is a fault (`eval_renderTemplate_alone`).
-/

namespace Scaffold.Template

/-! ### Scanning a name -/

namespace Scan

variable {c : Char} {cs : List Char} {line depth : Nat}

/-- **The characters of a name**: a letter or an underscore, and then digits as well. -/
def IsName (cs : List Char) : Prop :=
  cs.head?.any isWordStart = true ∧ ∀ d ∈ cs, isWordPart d = true

-- the search for an instance could settle the second part over all characters
instance (cs : List Char) : Decidable (IsName cs) :=
  decidable_of_iff (cs.head?.any isWordStart = true ∧ cs.all isWordPart = true)
    (and_congr_right fun _ => List.all_eq_true)

theorem ne_of_isWordStart {d : Char} (hc : isWordStart c = true) (hd : isWordStart d = false) :
    c ≠ d := by
  rintro rfl
  rw [hc] at hd
  cases hd

theorem mark?_of_isWordStart (hc : isWordStart c = true) (r : List Char) : mark? (c :: r) = none := by
  have hne : ∀ d, isWordStart d = false → c ≠ d := fun d => ne_of_isWordStart hc
  rw [mark?]
  all_goals
    intro x h
    exact hne _ (by decide) (List.cons.inj h).1

theorem close?_of_isWordStart (hc : isWordStart c = true) (kind : TagKind) (r : List Char) :
    close? kind (c :: r) = none := by
  have hminus : c ≠ '-' := ne_of_isWordStart hc (by decide)
  have hplus : c ≠ '+' := ne_of_isWordStart hc (by decide)
  have hedge : edge (c :: r) = (.plain, c :: r) := by
    rw [edge]
    · intro x h
      exact hminus (List.cons.inj h).1
    · intro x h
      exact hplus (List.cons.inj h).1
  have hlead : Text.dropLead? (closing kind) (c :: r) = none := by
    have hbrace : c ≠ '\x7d' := ne_of_isWordStart hc (by decide)
    have hpercent : c ≠ '%' := ne_of_isWordStart hc (by decide)
    cases kind
    · simp [closing, Text.dropLead?, Ne.symm hbrace]
    · simp [closing, Text.dropLead?, Ne.symm hpercent]
  rw [close?, hedge]
  simp only [hlead, Option.map_none]

/-- Letters and digits lie apart. -/
theorem isAlpha_eq_false_of_isDigit (h : c.isDigit = true) : c.isAlpha = false := by
  have hnine : '9'.val.toNat = 57 := by decide
  have hupper : 'A'.val.toNat = 65 := by decide
  have hlower : 'a'.val.toNat = 97 := by decide
  have hletter : c.isAlpha = (decide (c.val ≥ 'A'.val ∧ c.val ≤ 'Z'.val) ||
      (decide (c.val ≥ 'a'.val) && decide (c.val ≤ 'z'.val))) := rfl
  simp only [Char.isDigit, Bool.and_eq_true, decide_eq_true_eq, ge_iff_le,
    UInt32.le_iff_toNat_le, hnine] at h
  simp only [hletter, Bool.or_eq_false_iff, Bool.and_eq_false_iff, decide_eq_false_iff_not,
    ge_iff_le, UInt32.le_iff_toNat_le, hupper, hlower]
  omega

theorem isDigit_eq_false_of_isWordStart (hc : isWordStart c = true) : c.isDigit = false := by
  refine Bool.eq_false_iff.2 fun hdigit => ?_
  obtain rfl : c = '_' := by simpa [isWordStart, isAlpha_eq_false_of_isDigit hdigit] using hc
  cases hdigit

/-- **A word inside of a tag** goes as far as its characters do. -/
theorem inside_word (hc : isWordStart c = true) (kind : TagKind) :
    inside kind depth line (c :: cs) = .token (.word (String.ofList ((c :: cs).takeWhile isWordPart)))
      (.tag kind depth) line ((c :: cs).dropWhile isWordPart) := by
  have hspace : isSpace c = false := by
    have hne : ∀ d, isWordStart d = false → c ≠ d := fun d => ne_of_isWordStart hc
    simp only [isSpace, Bool.or_eq_false_iff, beq_eq_false_iff_ne]
    exact ⟨⟨⟨⟨hne _ (by decide), hne _ (by decide)⟩, hne _ (by decide)⟩, hne _ (by decide)⟩,
      hne _ (by decide)⟩
  have hquote : ¬ (c = '"' ∨ c = '\'') := by
    rintro (h | h)
    · exact ne_of_isWordStart hc (by decide) h
    · exact ne_of_isWordStart hc (by decide) h
  have hclose : (if depth = 0 then close? kind (c :: cs) else none) = none := by
    rw [close?_of_isWordStart hc, ite_self]
  rw [inside]
  simp only [hspace, hclose, mark?_of_isWordStart hc, if_neg hquote,
    isDigit_eq_false_of_isWordStart hc, hc, if_true,
    Bool.false_eq_true, if_false]

/-- A name before a character that is no part of one. -/
theorem inside_name {name : List Char} (hname : IsName name) (hd : isWordPart c = false)
    (kind : TagKind) : inside kind depth line (name ++ c :: cs) =
      .token (.word (String.ofList name)) (.tag kind depth) line (c :: cs) := by
  obtain ⟨hstart, hpart⟩ := hname
  obtain ⟨d, r, rfl⟩ := List.exists_cons_of_ne_nil (l := name) (by rintro rfl; cases hstart)
  rw [List.cons_append, inside_word hstart, ← List.cons_append,
    List.takeWhile_append_of_pos hpart, List.dropWhile_append_of_pos hpart,
    List.takeWhile_cons_of_neg (by simp [hd]), List.dropWhile_cons_of_neg (by simp [hd]),
    List.append_nil]

end Scan

/-- **The text of a template that is a name alone.** -/
def nameSource (name : String) : String := "\x7b\x7b " ++ name ++ " \x7d\x7d"

open Scan

theorem scan_nameSource {name : String} (h : IsName name.toList) :
    scan (nameSource name) = ⟨onLine 1 [.openVariable, .word name, .closeVariable], none⟩ := by
  have hchars : (nameSource name).toList =
      '\x7b' :: '\x7b' :: ' ' :: (name.toList ++ ' ' :: ['\x7d', '\x7d']) := by
    rw [nameSource, String.toList_append, String.toList_append]
    simp
  have hlast : withoutLastLineEnd (nameSource name).toList = (nameSource name).toList := by
    refine withoutLastLineEnd_of_last fun c hc => ?_
    have hend : (nameSource name).toList.getLast? = some '\x7d' := by
      rw [hchars]
      simp [List.getLast?_cons, List.getLast?_append]
    rw [hend, Option.mem_some] at hc
    subst hc
    decide
  obtain ⟨fuel, hfuel⟩ : ∃ n, 2 * (nameSource name).toList.length + 2 = n + 6 := by
    refine ⟨2 * (nameSource name).toList.length - 4, ?_⟩
    have hlength : 6 ≤ (nameSource name).toList.length := by simp [hchars]
    omega
  -- the opening, a blank, the name, a blank, and the closing
  have hopen : step (.text false) 1 ('\x7b' :: '\x7b' :: ' ' ::
      (name.toList ++ ' ' :: ['\x7d', '\x7d'])) = .token .openVariable (.tag .variable 0) 1
        (' ' :: (name.toList ++ ' ' :: ['\x7d', '\x7d'])) := rfl
  have hblank : ∀ cs, step (.tag .variable 0) 1 (' ' :: cs) = .silent (.tag .variable 0) 1 cs :=
    fun cs => rfl
  have hword : step (.tag .variable 0) 1 (name.toList ++ ' ' :: ['\x7d', '\x7d']) =
      .token (.word name) (.tag .variable 0) 1 (' ' :: ['\x7d', '\x7d']) := by
    rw [step, inside_name h (by decide), String.ofList_toList]
  have hclose : step (.tag .variable 0) 1 ['\x7d', '\x7d'] =
      .token .closeVariable (.text false) 1 [] := rfl
  have hdone : step (.text false) 1 [] = .done := rfl
  rw [scan, hlast, hfuel, hchars]
  simp only [run, hopen, hblank, hword, hclose, hdone]
  rfl

/-! ### Operands without operators -/

namespace Reading

variable {s t : ReadState} {e : Expression} {operand : Reading Expression} {l : Nat}
  {r : List PlacedToken}

/-- The mark at the end of a variable is next. -/
def AtClose (t : ReadState) : Prop := ∃ l r, t.tokens = ⟨.closeVariable, l⟩ :: r

theorem AtClose.peek_eq (ht : AtClose t) : peek t = .ok (some .closeVariable, t) := by
  obtain ⟨l, r, hr⟩ := ht
  obtain ⟨tokens, fault, last, loops, inMacro, blocks⟩ := t
  obtain rfl : tokens = _ := hr
  rfl

theorem chain_alone {j : Token → Option (Expression → Expression → Expression)}
    (ht : AtClose t) (hj : j .closeVariable = none) (h : operand s = .ok (e, t)) :
    chain operand j s = .ok (e, t) := by
  refine (bind_of_ok h).trans (repeated_stop ?_)
  refine (bind_of_ok ht.peek_eq).trans ?_
  simp only [Option.bind_some, hj]
  rfl

theorem comparisons_alone (ht : AtClose t) (h : operand s = .ok (e, t)) :
    comparisons operand s = .ok (e, t) :=
  (bind_of_ok h).trans (repeated_stop ((bind_of_ok ht.peek_eq).trans rfl))

theorem followed_alone (ht : AtClose t) (full plain : Reading Expression) (start : Nat) :
    followed full plain start e t = .ok (e, t) :=
  repeated_stop ((bind_of_ok ht.peek_eq).trans rfl)

theorem refined_alone (ht : AtClose t) (full plain signed : Reading Expression) :
    refined full plain signed e t = .ok (e, t) :=
  repeated_stop ((bind_of_ok ht.peek_eq).trans rfl)

/-- No sign stands before the operand. -/
theorem behindSigns_alone {m x : Token} (hs : peek s = .ok (some x, s)) (hx : x ≠ m)
    (op : UnaryOperator) (h : operand s = .ok (e, t)) :
    behindSigns m op operand s = .ok (e, t) := by
  have hstop : repeated (fun ls : List Nat => do
      if (← peek) = some m then pure (.more ((← taken).line :: ls)) else pure (.stop ls)) [] s =
        .ok ([], s) := by
    refine repeated_stop ?_
    refine (bind_of_ok hs).trans ?_
    rw [if_neg (mt Option.some.inj hx)]
    rfl
  exact (bind_of_ok hstop).trans ((bind_of_ok h).trans rfl)

theorem conditional_alone (ht : AtClose t) (h : operand s = .ok (e, t)) (n : Nat) :
    conditional operand (n + 1) s = .ok (e, t) := by
  obtain ⟨start, hline⟩ : ∃ start, line s = .ok (start, s) := by
    rw [line]
    split
    · exact ⟨_, rfl⟩
    · exact ⟨_, rfl⟩
  have hskip : skipWord "if" t = .ok (false, t) := (bind_of_ok ht.peek_eq).trans rfl
  rw [conditional]
  refine (bind_of_ok hline).trans ((bind_of_ok h).trans (repeated_stop ?_))
  exact (bind_of_ok hskip).trans rfl

/-- A name that is no constant. -/
theorem primary_name {name : String} (hc : constant? name = none) (full : Reading Expression)
    (h : s.tokens = ⟨.word name, l⟩ :: r) :
    primary full s = .ok (.name l name, { s with tokens := r, last := l }) := by
  obtain ⟨tokens, fault, last, loops, inMacro, blocks⟩ := s
  obtain rfl : tokens = _ := h
  refine (bind_of_ok (a := ⟨.word name, l⟩) rfl).trans ?_
  simp only [hc]
  rfl

/-- **A name alone is read as itself** on every level of expressions. -/
theorem expressionWithin_name {name : String} (hc : constant? name = none) (hnot : name ≠ "not")
    (d : Nat) {k : Nat} (h : s.tokens = ⟨.word name, l⟩ :: ⟨.closeVariable, k⟩ :: r) :
    expressionWithin (d + 2) true s =
      .ok (.name l name, { s with tokens := ⟨.closeVariable, k⟩ :: r, last := l }) := by
  obtain ⟨t, ht⟩ : ∃ t, t = { s with tokens := ⟨.closeVariable, k⟩ :: r, last := l } := ⟨_, rfl⟩
  have hclose : AtClose t := ⟨k, r, by rw [ht]⟩
  have hpeek : peek s = .ok (some (.word name), s) := by
    rw [peek, h]
  have hline : line s = .ok (l, s) := by
    rw [line, h]
  have hprimary : primary (expressionWithin d true) s = .ok (.name l name, t) := by
    rw [ht]
    exact primary_name hc _ h
  have hsigned := behindSigns_alone (m := .mark .minus) hpeek (by simp) .negate hprimary
  obtain ⟨signed, hdef⟩ : ∃ m, m = behindSigns (.mark .minus) .negate
    (primary (expressionWithin d true)) := ⟨_, rfl⟩
  rw [← hdef] at hsigned
  let full := expressionWithin (d + 1) true
  let plain := expressionWithin (d + 1) false
  let unary : Reading Expression := do
    let start ← line
    refined full plain signed (← followed full plain start (← signed))
  have hunary : unary s = .ok (.name l name, t) := by
    refine (bind_of_ok hline).trans ((bind_of_ok hsigned).trans ?_)
    exact (bind_of_ok (followed_alone hclose full plain l)).trans (refined_alone hclose full plain _)
  -- from the tightest operators to the loosest
  have hsum := chain_alone (j := fun t => (sum? t).map fun op => .binary op) hclose rfl
    (chain_alone (j := fun t => (concat? t).map fun op => .binary op) hclose rfl
      (chain_alone (j := fun t => (product? t).map fun op => .binary op) hclose rfl
        (chain_alone (j := fun t => (power? t).map fun op => .binary op) hclose rfl hunary)))
  have hnegation := behindSigns_alone (m := .word "not") hpeek (by simpa using hnot) .not
    (comparisons_alone hclose hsum)
  have hdisjunction := chain_alone
    (j := fun t => if t = .word "or" then some .or else none) hclose rfl
    (chain_alone (j := fun t => if t = .word "and" then some .and else none) hclose rfl
      hnegation)
  have hbudget : budget s = .ok (s.tokens.length + 1 + 1, s) := rfl
  rw [← ht, expressionWithin, expressionOver, if_pos rfl, ← hdef]
  exact (bind_of_ok hbudget).trans (conditional_alone hclose hdisjunction _)

end Reading

open Reading in
/-- **The text of a name is read as this name**, unless the name is that of a constant or of the
negation. -/
theorem read_nameSource {name : String} (h : IsName name.toList) (hc : constant? name = none)
    (hnot : name ≠ "not") (home : String) :
    Template.read home (nameSource name) = .ok ⟨home, [.emit 1 (.name 1 name)]⟩ := by
  have hname := expressionWithin_name (s := Wrapping.state _ 1 .outside) hc hnot 148
    (l := 1) (k := 1) (r := []) rfl
  have hemit := bodyStep_emit (statementWithin 150) [] []
    (s := Wrapping.state (onLine 1 [.openVariable, .word name, .closeVariable]) 1 .outside) rfl
    hname rfl
  have hread : ∃ t, bodyOver (expressionWithin depthLimit true) (statementWithin depthLimit) []
      ⟨onLine 1 [.openVariable, .word name, .closeVariable], none, 1, .outside, false, []⟩ =
        .ok ([.emit 1 (.name 1 name)], t) := by
    rw [bodyOver_eq]
    exact ⟨_, (repeated_more hemit).trans (iterate_stop (bodyStep_nil rfl rfl) _)⟩
  obtain ⟨t, ht⟩ := hread
  rw [Template.read, scan_nameSource h]
  simp only [ht]

/-! ### What a name stands for -/

section

open Run

variable {A : String → Except RenderFault Template} {M : String → Except Failure (List String)}
  {K : Kept} {s : Machine} {home name : String} {low : Lower} {context : Value}

/-- **A name is looked up** in what the template sees, and then among the functions. -/
theorem result_lookup_context (hs : Wrapping.Begun context s) (name : String) :
    (lookup name).result A M K s =
      (.ok (((context.attribute? s.heap name).or (builtin? name)).getD (.undefined false)), s) := by
  have hlookup : (lookup name).result A M K s =
      (.ok (((s.frames.findSome? (inFrame? s.heap name)).or (builtin? name)).getD
        (.undefined false)), s) := rfl
  have hframe : inFrame? s.heap name (Frame.on (.given context)) = context.attribute? s.heap name :=
    rfl
  rw [hlookup, hs.frames, List.findSome?_singleton, hframe]

/-- What a name alone comes to: the text of what it stands for, or the fault that it stands for
nothing. -/
def nameText (home : String) (h : Heap) (context : Value) (name : String) :
    Except RenderFault String :=
  match (context.attribute? h name).or (builtin? name) with
  | some v => .ok (v.shown h)
  | none => .error ((RenderFault.bare .undefinedValue).placed home 1)

theorem writes_alone (hs : Wrapping.Begun context s)
    (hdefined : context.attribute? s.heap name ≠ some (.undefined false)) :
    Writes A M (Wrapping.Ready · []) ((Statement.emit 1 (.name 1 name)).run low home) s .on
      (nameText home s.heap context name) := by
  have hlookup : ∀ K, (lookup name).result A M K s = _ := fun _ => result_lookup_context hs name
  rw [Statement.run, Wrapping.showExpression_name, Expression.eval, nameText]
  cases hv : (context.attribute? s.heap name).or (builtin? name) with
  | none =>
    rw [hv] at hlookup
    refine fun K => ⟨s, result_bind_of_error ((result_bind_of_ok (hlookup K)).trans ?_)⟩
    rw [result_blaming]
    rfl
  | some v =>
    rw [hv] at hlookup
    have hne : v ≠ .undefined false := by
      rintro rfl
      rcases Option.or_eq_some_iff.1 hv with h | ⟨-, h⟩
      · exact hdefined h
      · unfold builtin? at h
        split at h <;> cases h
    have hemit : ∀ K, (blaming home 1 (emit v)).result A M K s =
        (.ok (), { s with out := s.out ++ v.shown s.heap }) := by
      intro K
      rw [result_blaming, result_emit hne hs.escaping]
      rfl
    exact fun K => ⟨_, result_bind_of_ok ((result_bind_of_ok (hlookup K)).trans (hemit _)),
      ⟨hs.escaping, hs.parent, hs.frame⟩, rfl⟩

/-- **A template that is a name alone** comes to the text of what the name stands for, or fails
because it stands for nothing. -/
theorem eval_renderTemplate_alone (hdefined : context.attribute? .empty name ≠ some (.undefined false))
    (child : Node → String → Inquiry (Except Failure String)) :
    (renderTemplate child ⟨home, [.emit 1 (.name 1 name)]⟩ context).eval A M K =
      nameText home .empty context name := by
  have hbegun := Wrapping.Begun.start ⟨home, [.emit 1 (.name 1 name)]⟩ context
  have hname : Writes A M (Wrapping.Ready · [])
      ((Statement.emit 1 (.name 1 name)).run (lower child levels) home) _ .on _ :=
    writes_alone hbegun hdefined
  have hall := Wrapping.writes_cons hname fun u hu => Wrapping.writes_nil hu
  refine (Wrapping.eval_of_writes (Wrapping.writes_runBody hbegun.parent hall)).trans ?_
  have hheap : (Machine.start ⟨home, [.emit 1 (.name 1 name)]⟩ context).heap = .empty := rfl
  rw [hheap]
  cases nameText home .empty context name with
  | error e => rfl
  | ok x => exact congrArg Except.ok String.append_empty

end

end Scaffold.Template
