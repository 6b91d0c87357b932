import Scaffold.Template.Statement

/-!
# Steps of reading a template

A reading goes on behind what it has read (`bind_of_ok`). A body is read by one step for each text,
expression or statement in it (`bodyStep`), up to its end.
-/

namespace Scaffold.Template.Reading

variable {α β σ : Type} {s t : ReadState}

theorem bind_of_ok {x : Reading α} {f : α → Reading β} {a : α} (h : x s = .ok (a, t)) :
    (x >>= f) s = f a t := by
  change (x s >>= fun p => f p.1 p.2) = _
  rw [h]
  rfl

theorem iterate_more {step : σ → Reading (Progress σ α)} {a b : σ}
    (h : step a s = .ok (.more b, t)) (n : Nat) :
    iterate step (n + 1) a s = iterate step n b t := bind_of_ok h

theorem iterate_stop {step : σ → Reading (Progress σ α)} {a : σ} {b : α}
    (h : step a s = .ok (.stop b, t)) (n : Nat) : iterate step (n + 1) a s = .ok (b, t) :=
  bind_of_ok h

theorem repeated_eq (step : σ → Reading (Progress σ α)) (a : σ) (s : ReadState) :
    repeated step a s = iterate step (s.tokens.length + 2) a s := rfl

theorem repeated_more {step : σ → Reading (Progress σ α)} {a b : σ}
    (h : step a s = .ok (.more b, t)) :
    repeated step a s = iterate step (s.tokens.length + 1) b t := iterate_more h _

theorem repeated_stop {step : σ → Reading (Progress σ α)} {a : σ} {b : α}
    (h : step a s = .ok (.stop b, t)) : repeated step a s = .ok (b, t) := iterate_stop h _

/-- A reading in another state leaves the present one, but for the tokens, as it is. -/
theorem inside_of_ok {m : Reading α} {a : α} {loops : LoopReach} {inMacro : Bool}
    (h : m { s with loops := loops, inMacro := inMacro } = .ok (a, t)) :
    inside loops inMacro m s = .ok (a, { t with loops := s.loops, inMacro := s.inMacro }) := by
  rw [inside]
  refine (bind_of_ok (a := s) (t := s) rfl).trans ?_
  refine (bind_of_ok (a := ()) (t := { s with loops := loops, inMacro := inMacro }) rfl).trans ?_
  exact (bind_of_ok h).trans rfl

/-! ### Bodies -/

variable {full : Reading Expression} {statement : Reading Statement} {ends : List String}
  {acc : List Statement} {l l' l'' : Nat} {ts us : List PlacedToken}

/-- One part of a body, or its end. -/
def bodyStep (full : Reading Expression) (statement : Reading Statement) (ends : List String)
    (acc : List Statement) : Reading (Progress (List Statement) (List Statement)) := do
  match ← next with
  | none => pure (.stop acc.reverse)
  | some ⟨.text s, _⟩ => pure (.more (.text s :: acc))
  | some ⟨.openVariable, l⟩ =>
    let e ← full
    expect .closeVariable
    pure (.more (.emit l e :: acc))
  | some ⟨.openBlock, _⟩ =>
    let isEnd := match ← peek with
      | some (.word w) => ends.contains w
      | _ => false
    if isEnd then pure (.stop acc.reverse)
    else
      let s ← statement
      expect .closeBlock
      pure (.more (s :: acc))
  | some _ => fail

theorem bodyOver_eq : bodyOver full statement ends = repeated (bodyStep full statement ends) [] :=
  rfl

theorem bodyStep_text {x : String} (h : s.tokens = ⟨.text x, l⟩ :: ts) :
    bodyStep full statement ends acc s =
      .ok (.more (.text x :: acc), { s with tokens := ts, last := l }) := by
  obtain ⟨tokens, fault, last, loops, inMacro, blocks⟩ := s
  obtain rfl : tokens = _ := h
  rfl

theorem bodyStep_emit (statement : Reading Statement) (ends : List String) (acc : List Statement)
    {e : Expression} (h : s.tokens = ⟨.openVariable, l⟩ :: ts)
    (hfull : full { s with tokens := ts, last := l } = .ok (e, t))
    (ht : t.tokens = ⟨.closeVariable, l'⟩ :: us) :
    bodyStep full statement ends acc s =
      .ok (.more (.emit l e :: acc), { t with tokens := us, last := l' }) := by
  obtain ⟨tokens, fault, last, loops, inMacro, blocks⟩ := s
  obtain rfl : tokens = _ := h
  obtain ⟨tokens, fault', last', loops', inMacro', blocks'⟩ := t
  obtain rfl : tokens = _ := ht
  rw [bodyStep]
  refine (bind_of_ok (a := some ⟨.openVariable, l⟩) rfl).trans ?_
  refine (bind_of_ok hfull).trans ?_
  rfl

theorem bodyStep_statement (full : Reading Expression) (ends : List String) (acc : List Statement)
    {w : String} {x : Statement}
    (h : s.tokens = ⟨.openBlock, l⟩ :: ⟨.word w, l'⟩ :: ts) (hw : ends.contains w = false)
    (hstatement : statement { s with tokens := ⟨.word w, l'⟩ :: ts, last := l } = .ok (x, t))
    (ht : t.tokens = ⟨.closeBlock, l''⟩ :: us) :
    bodyStep full statement ends acc s =
      .ok (.more (x :: acc), { t with tokens := us, last := l'' }) := by
  obtain ⟨tokens, fault, last, loops, inMacro, blocks⟩ := s
  obtain rfl : tokens = _ := h
  obtain ⟨tokens, fault', last', loops', inMacro', blocks'⟩ := t
  obtain rfl : tokens = _ := ht
  rw [bodyStep]
  refine (bind_of_ok (a := some ⟨.openBlock, l⟩) rfl).trans ?_
  refine (bind_of_ok (a := some (.word w)) rfl).trans ?_
  simp only [hw, Bool.false_eq_true, if_false]
  refine (bind_of_ok hstatement).trans ?_
  rfl

/-- A body ends before the word of a tag that may end it. -/
theorem bodyStep_end {w : String} (h : s.tokens = ⟨.openBlock, l⟩ :: ⟨.word w, l'⟩ :: ts)
    (hw : ends.contains w = true) :
    bodyStep full statement ends acc s =
      .ok (.stop acc.reverse, { s with tokens := ⟨.word w, l'⟩ :: ts, last := l }) := by
  obtain ⟨tokens, fault, last, loops, inMacro, blocks⟩ := s
  obtain rfl : tokens = _ := h
  rw [bodyStep]
  refine (bind_of_ok (a := some ⟨.openBlock, l⟩) rfl).trans ?_
  refine (bind_of_ok (a := some (.word w)) rfl).trans ?_
  simp only [hw, if_true]
  rfl

/-- The last body ends with the template. -/
theorem bodyStep_nil (h : s.tokens = []) (hfault : s.fault = none) :
    bodyStep full statement ends acc s = .ok (.stop acc.reverse, s) := by
  obtain ⟨tokens, fault, last, loops, inMacro, blocks⟩ := s
  obtain rfl : tokens = [] := h
  obtain rfl : fault = none := hfault
  rfl

end Scaffold.Template.Reading
