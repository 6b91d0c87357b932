import Scaffold.Proofs.Template.Reading
import Scaffold.Proofs.Template.Scanning

/-!
# Templates that wrap a value and the children

A `Wrapping` is a template of the simplest recursive shape: a text, the value, every child rendered in
a mode, and another text. Its source is read as just that (`read_source`), if the texts have no
opening brace and no line end stands last.
-/

namespace Scaffold.Template

/-- The texts before the value and behind the children. -/
structure Wrapping where
  before : String
  after : String

namespace Wrapping

/-- Neither text has an opening brace, and the second does not end in a line feed or a carriage
return. -/
structure Literal (w : Wrapping) : Prop where
  before : '\x7b' ∉ w.before.toList
  after : '\x7b' ∉ w.after.toList
  last : ∀ c ∈ w.after.toList.getLast?, c ∉ ['\n', '\r']

/-- What stands between the first text and the mode. -/
def opening : List Char :=
  "\x7b\x7b value \x7d\x7d\x7b% for c in children %\x7d\x7b\x7b c.render(".toList

/-- What stands between the mode and the second text. -/
def closing : List Char := ") \x7d\x7d\x7b% endfor %\x7d".toList

/-- **The source of a wrapping**: the first text, the value, the children in a mode one after the
other, and the second text. -/
def source (w : Wrapping) (mode : String) : String :=
  String.ofList (w.before.toList ++ (opening ++ (Scan.quote mode ++ (closing ++ w.after.toList))))

/-! ### Tokens -/

def openingTokens : List Token :=
  [.openVariable, .word "value", .closeVariable, .openBlock, .word "for", .word "c", .word "in",
    .word "children", .closeBlock, .openVariable, .word "c", .mark .dot, .word "render",
    .mark .openParen]

def closingTokens : List Token :=
  [.mark .closeParen, .closeVariable, .openBlock, .word "endfor", .closeBlock]

open Scan

theorem scans_opening (line : Nat) : Scans 22 (.text false) line opening
    (onLine line openingTokens) (.tag .variable 1) line :=
  scans_of_run fun _ _ => rfl

theorem scans_closing (line : Nat) : Scans 8 (.tag .variable 1) line closing
    (onLine line closingTokens) (.text false) line :=
  scans_of_run fun _ _ => rfl

/-- The line of the value. -/
def line (w : Wrapping) : Nat := 1 + newlines w.before.toList

/-- The line behind the mode. -/
def lastLine (w : Wrapping) (mode : String) : Nat :=
  w.line + newlines (mode.toList.flatMap quoteChar)

def tokens (w : Wrapping) (mode : String) : List PlacedToken :=
  textToken 1 w.before ++ (onLine w.line openingTokens ++ ([⟨.quoted mode, w.line⟩] ++
    (onLine (w.lastLine mode) closingTokens ++ textToken (w.lastLine mode) w.after)))

/-- The first tag leaves the blanks before it. -/
theorem opening?_opening (r : List Char) :
    ∃ rest, opening? (opening ++ r) = some (.variable, rest) ∧ (edge rest).1 = .plain := by
  have heq : opening = '\x7b' :: '\x7b' :: ' ' :: opening.drop 3 := by decide
  rw [heq]
  exact ⟨_, rfl, rfl⟩

theorem toList_source (w : Wrapping) (mode : String) : (w.source mode).toList =
    w.before.toList ++ (opening ++ (quote mode ++ closing)) ++ w.after.toList := by
  simp only [source, String.toList_ofList, List.append_assoc]

/-- What is scanned is the whole source. -/
theorem withoutLastLineEnd_source {w : Wrapping} (hw : w.Literal) (mode : String) :
    withoutLastLineEnd (w.source mode).toList = (w.source mode).toList := by
  refine withoutLastLineEnd_of_last fun c hc => ?_
  rw [toList_source, List.getLast?_append] at hc
  cases hafter : w.after.toList.getLast? with
  | some d =>
    rw [hafter, Option.some_or] at hc
    exact hw.last c (hafter ▸ hc)
  | none =>
    -- the last character is that of the closing tag
    have hclosing : closing.getLast? = some '\x7d' := by decide
    simp only [hafter, List.getLast?_append, hclosing, Option.some_or, Option.none_or,
      Option.mem_def, Option.some.injEq] at hc
    subst hc
    decide

theorem scan_source {w : Wrapping} (hw : w.Literal) {mode : String} (hm : '\\' ∉ mode.toList) :
    scan (w.source mode) = ⟨w.tokens mode, none⟩ := by
  have hmiddle := (scans_opening w.line).append
    ((scans_quote hm .variable 0).append (scans_closing (w.lastLine mode)))
  have hopen : ∀ r, ∃ kind rest, opening? (opening ++ (quote mode ++ closing) ++ r) =
      some (kind, rest) ∧ (edge rest).1 ≠ .remove := by
    intro r
    rw [List.append_assoc]
    obtain ⟨rest, hrest, hedge⟩ := opening?_opening (quote mode ++ closing ++ r)
    exact ⟨_, rest, hrest, by rw [hedge]; decide⟩
  have hall := scans_text 1 hw.before hopen hmiddle
  have hlength : 62 ≤ (w.source mode).toList.length := by
    have hopening : opening.length = 46 := by decide
    have hclosing : closing.length = 16 := by decide
    rw [toList_source]
    simp only [List.length_append, hopening, hclosing]
    omega
  obtain ⟨fuel, hfuel, hrun⟩ := hall (2 * (w.source mode).toList.length + 2) w.after.toList
    (by omega)
  obtain ⟨fuel, rfl⟩ : ∃ f, fuel = f + 2 := ⟨fuel - 2, by omega⟩
  rw [scan, withoutLastLineEnd_source hw]
  rw [← toList_source] at hrun
  rw [hrun, run_text hw.after, TokenStream.prepend, tokens]
  simp only [List.append_assoc]

/-! ### Statements -/

open Reading

def rendering (w : Wrapping) (mode : String) : Expression :=
  .call w.line (.attribute (.name w.line "c") "render") [.value (.literal w.line (.text mode))]

def loop (w : Wrapping) (mode : String) : Statement :=
  .loop w.line (.name "c") (.name w.line "children") [] false
    [.emit w.line (w.rendering mode)] []

def textStatement (s : String) : List Statement := if s = "" then [] else [.text s]

/-- **The statements of a wrapping.** -/
def statements (w : Wrapping) (mode : String) : List Statement :=
  textStatement w.before ++ ([.emit w.line (.name w.line "value"), w.loop mode] ++
    textStatement w.after)

section

variable (d l l' last : Nat) (loops : LoopReach) (mode : String) (r : List PlacedToken)

/-- A state in which these tokens are to be read. -/
def state (ts : List PlacedToken) (last : Nat) (loops : LoopReach) : ReadState :=
  ⟨ts, none, last, loops, false, []⟩

theorem expression_value : expressionWithin (d + 2) true
    (state (⟨.word "value", l⟩ :: ⟨.closeVariable, l'⟩ :: r) last loops) =
      .ok (.name l "value", state (⟨.closeVariable, l'⟩ :: r) l loops) := rfl

theorem expression_children : expressionWithin (d + 2) false
    (state (⟨.word "children", l⟩ :: ⟨.closeBlock, l'⟩ :: r) last loops) =
      .ok (.name l "children", state (⟨.closeBlock, l'⟩ :: r) l loops) := rfl

theorem expression_rendering (w : Wrapping) : expressionWithin (d + 3) true
    (state (onLine w.line [.word "c", .mark .dot, .word "render", .mark .openParen, .quoted mode] ++
      onLine l' [.mark .closeParen, .closeVariable] ++ r) last loops) =
      .ok (w.rendering mode, state (⟨.closeVariable, l'⟩ :: r) l' loops) := rfl

/-- The body of the loop: a child is rendered. -/
theorem body_loop (w : Wrapping) (statement : Reading Statement) :
    bodyOver (expressionWithin (d + 3) true) statement ["endfor", "else"]
      (state (⟨.openVariable, w.line⟩ :: (onLine w.line [.word "c", .mark .dot, .word "render",
        .mark .openParen, .quoted mode] ++ onLine l' [.mark .closeParen, .closeVariable] ++
          (⟨.openBlock, l'⟩ :: ⟨.word "endfor", l'⟩ :: r))) last loops) =
      .ok ([.emit w.line (w.rendering mode)], state (⟨.word "endfor", l'⟩ :: r) l' loops) := by
  have hemit := bodyStep_emit statement ["endfor", "else"] []
    (s := state _ last loops) rfl
    (expression_rendering d l' w.line loops mode (⟨.openBlock, l'⟩ :: ⟨.word "endfor", l'⟩ :: r) w)
    rfl
  rw [bodyOver_eq]
  exact (repeated_more hemit).trans (iterate_stop (bodyStep_end rfl rfl) _)

/-- The tokens of the loop behind its first word, up to the word that ends it. -/
def loopTokens (w : Wrapping) (mode : String) (l' : Nat) : List PlacedToken :=
  onLine w.line [.word "c", .word "in", .word "children", .closeBlock, .openVariable, .word "c",
    .mark .dot, .word "render", .mark .openParen, .quoted mode] ++
  onLine l' [.mark .closeParen, .closeVariable, .openBlock, .word "endfor"]

theorem statement_loop (w : Wrapping) : statementWithin (d + 4)
    (state (⟨.word "for", w.line⟩ :: (w.loopTokens mode l' ++ r)) last loops) =
      .ok (w.loop mode, state r l' loops) := by
  let parts : Parts := ⟨expressionWithin (d + 3) true, expressionWithin (d + 3) false,
    bodyOver (expressionWithin (d + 3) true) (statementWithin (d + 3))⟩
  -- what is left from the items on, and from the body on
  let fromItems := (w.loopTokens mode l' ++ r).drop 2
  let fromBody := (w.loopTokens mode l' ++ r).drop 4
  have htarget : targets (state (w.loopTokens mode l' ++ r) w.line .body) =
      .ok (.name "c", state (⟨.word "in", w.line⟩ :: fromItems) w.line .body) := rfl
  have hitems : parts.plain (state fromItems w.line .body) =
      .ok (.name w.line "children", state (⟨.closeBlock, w.line⟩ :: fromBody) w.line .body) :=
    expression_children (d + 1) w.line w.line w.line .body fromBody
  have hbody : parts.body ["endfor", "else"] (state fromBody w.line .body) =
      .ok ([.emit w.line (w.rendering mode)], state (⟨.word "endfor", l'⟩ :: r) l' .body) :=
    body_loop d l' w.line .body mode r w (statementWithin (d + 3))
  have hloop : loopStatement parts w.line (state (w.loopTokens mode l' ++ r) w.line loops) =
      .ok (w.loop mode, state r l' loops) := by
    rw [loopStatement]
    refine (bind_of_ok rfl).trans ?_
    refine inside_of_ok (t := state r l' .body) ?_
    refine (bind_of_ok htarget).trans ?_
    refine (bind_of_ok (a := ()) (t := state fromItems w.line .body) rfl).trans ?_
    refine (bind_of_ok hitems).trans ?_
    -- neither a condition nor recursion
    refine (bind_of_ok (a := false) (t := state (⟨.closeBlock, w.line⟩ :: fromBody) w.line .body)
      rfl).trans ?_
    refine (bind_of_ok (a := []) (t := state (⟨.closeBlock, w.line⟩ :: fromBody) w.line .body)
      rfl).trans ?_
    refine (bind_of_ok (a := false) (t := state (⟨.closeBlock, w.line⟩ :: fromBody) w.line .body)
      rfl).trans ?_
    refine (bind_of_ok (a := ()) (t := state fromBody w.line .body) rfl).trans ?_
    refine (bind_of_ok hbody).trans ?_
    rfl
  have hword : taken (state (⟨.word "for", w.line⟩ :: (w.loopTokens mode l' ++ r)) last loops) =
      .ok (⟨.word "for", w.line⟩, state (w.loopTokens mode l' ++ r) w.line loops) := rfl
  have hstatement : statementWithin (d + 4) = statementOver parts := rfl
  rw [hstatement, statementOver]
  exact (bind_of_ok hword).trans hloop

/-- A last text is the last statement. -/
theorem iterate_text (full : Reading Expression) (statement : Reading Statement) (s : String)
    (acc : List Statement) (n : Nat) : ∃ t,
    iterate (bodyStep full statement []) (n + 2) acc (state (textToken l s) last loops) =
      .ok (acc.reverse ++ textStatement s, t) := by
  rw [textToken, textStatement]
  split_ifs
  · exact ⟨_, (iterate_stop (bodyStep_nil rfl rfl) _).trans (by rw [List.append_nil])⟩
  · exact ⟨_, (iterate_more (bodyStep_text rfl) _).trans ((iterate_stop (bodyStep_nil rfl rfl) _).trans
      (by rw [List.reverse_cons]))⟩

/-- The value and the loop, and then the last text. -/
theorem iterate_middle (w : Wrapping) (acc : List Statement) (n : Nat) : ∃ t,
    iterate (bodyStep (expressionWithin (d + 4) true) (statementWithin (d + 4)) []) (n + 4) acc
      (state (onLine w.line openingTokens ++ ([⟨.quoted mode, w.line⟩] ++
        (onLine l' closingTokens ++ textToken l' w.after))) last loops) =
      .ok (acc.reverse ++ ([.emit w.line (.name w.line "value"), w.loop mode] ++
        textStatement w.after), t) := by
  let fromLoop := ⟨.openBlock, w.line⟩ :: ⟨.word "for", w.line⟩ ::
    (w.loopTokens mode l' ++ ⟨.closeBlock, l'⟩ :: textToken l' w.after)
  have hvalue := bodyStep_emit (statementWithin (d + 4)) [] acc
    (s := state (⟨.openVariable, w.line⟩ :: ⟨.word "value", w.line⟩ :: ⟨.closeVariable, w.line⟩ ::
      fromLoop) last loops) rfl (expression_value (d + 2) w.line w.line w.line loops fromLoop) rfl
  have hloop := bodyStep_statement (expressionWithin (d + 4) true) []
    (.emit w.line (.name w.line "value") :: acc) (s := state fromLoop w.line loops) rfl rfl
    (statement_loop d l' w.line loops mode (⟨.closeBlock, l'⟩ :: textToken l' w.after) w) rfl
  obtain ⟨t, ht⟩ := iterate_text l' l' loops (expressionWithin (d + 4) true)
    (statementWithin (d + 4)) w.after (w.loop mode :: .emit w.line (.name w.line "value") :: acc) n
  refine ⟨t, (iterate_more hvalue _).trans ((iterate_more hloop _).trans (ht.trans ?_))⟩
  simp

end

/-- **The source of a wrapping is read as its statements.** -/
theorem read_source {w : Wrapping} (hw : w.Literal) {mode : String} (hm : '\\' ∉ mode.toList)
    (name : String) : Template.read name (w.source mode) = .ok ⟨name, w.statements mode⟩ := by
  obtain ⟨middle, hmiddle⟩ : ∃ ts, ts = onLine w.line openingTokens ++
    ([⟨.quoted mode, w.line⟩] ++ (onLine (w.lastLine mode) closingTokens ++
      textToken (w.lastLine mode) w.after)) := ⟨_, rfl⟩
  obtain ⟨n, hn⟩ : ∃ n, middle.length = n + 3 :=
    Nat.exists_eq_add_of_le' (by simp [hmiddle, onLine, openingTokens])
  have hstatements := iterate_middle 146 (w.lastLine mode) 1 .outside mode w
  rw [← hmiddle] at hstatements
  obtain ⟨full, hfull⟩ : ∃ x, x = expressionWithin (146 + 4) true := ⟨_, rfl⟩
  obtain ⟨statement, hstatement⟩ : ∃ x, x = statementWithin (146 + 4) := ⟨_, rfl⟩
  rw [← hfull, ← hstatement] at hstatements
  have hbody : ∃ t, bodyOver full statement [] (state (w.tokens mode) 1 .outside) =
      .ok (w.statements mode, t) := by
    rw [bodyOver_eq, repeated_eq, tokens, statements, textToken, textStatement, ← hmiddle]
    split_ifs with hempty
    · obtain ⟨t, ht⟩ := hstatements [] (n + 1)
      refine ⟨t, ?_⟩
      rw [List.nil_append, state, hn]
      exact ht
    · obtain ⟨t, ht⟩ := hstatements [.text w.before] (n + 1)
      refine ⟨t, ?_⟩
      rw [List.singleton_append, state, List.length_cons, hn]
      exact (iterate_more (bodyStep_text rfl) _).trans ht
  obtain ⟨t, ht⟩ := hbody
  rw [hfull, hstatement] at ht
  rw [Template.read, scan_source hw hm]
  have hread : bodyOver (expressionWithin depthLimit true) (statementWithin depthLimit) []
      ⟨w.tokens mode, none, 1, .outside, false, []⟩ = .ok (w.statements mode, t) := ht
  simp only [hread]

end Wrapping

end Scaffold.Template
