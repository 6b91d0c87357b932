import Scaffold.Proofs.Store.Inquiry

/-!
# Activities of templates

With the answers to questions fixed, and with what is kept at first, an activity is a function of the
machine (`Run.result`). The lemmas here go through an activity step by step: what follows a step that comes to a value, or to a
fault, and what a sequence of activities writes (`Run.Writes.bind`).
-/

namespace Scaffold.Template

variable {A : String → Except RenderFault Template} {M : String → Except Failure (List String)}
  {K : Kept} {α β : Type} {s t : Machine}

namespace Run

/-- What an activity comes to, and the machine behind it, if these are the answers to its
questions and `K` is kept at first. -/
def result (A : String → Except RenderFault Template) (M : String → Except Failure (List String))
    (K : Kept) (m : Run α) (s : Machine) : Except RenderFault α × Machine := (m.run s).eval A M K

/-- What is kept after an activity. -/
def keptAfter (A : String → Except RenderFault Template)
    (M : String → Except Failure (List String)) (K : Kept) (m : Run α) (s : Machine) : Kept :=
  (m.run s).keptAfter A M K

theorem result_bind_of_ok {x : Run α} {f : α → Run β} {a : α} (h : x.result A M K s = (.ok a, t)) :
    (x >>= f).result A M K s = (f a).result A M (x.keptAfter A M K s) t := by
  have hbind : (x >>= f).result A M K s = ((ExceptT.bindCont f (x.result A M K s).1).run
      (x.result A M K s).2).eval A M (x.keptAfter A M K s) := Inquiry.eval_bind _ _
  rw [hbind, h]
  rfl

theorem result_bind_of_error {x : Run α} {f : α → Run β} {e : RenderFault}
    (h : x.result A M K s = (.error e, t)) : (x >>= f).result A M K s = (.error e, t) := by
  have hbind : (x >>= f).result A M K s = ((ExceptT.bindCont f (x.result A M K s).1).run
      (x.result A M K s).2).eval A M (x.keptAfter A M K s) := Inquiry.eval_bind _ _
  rw [hbind, h]
  rfl

/-- What comes of an activity whose faults are given a place. -/
def placed (home : String) (line : Nat) : Except RenderFault α → Run α
  | .ok a => pure a
  | .error e => throw (e.placed home line)

theorem result_blaming (home : String) (line : Nat) (m : Run α) :
    (blaming home line m).result A M K s =
      (m.result A M K s).map (Except.mapError (·.placed home line)) id := by
  have hcatch : (blaming home line m).run s = m.run s >>= fun p => (placed home line p.1).run p.2 := by
    simp only [blaming, tryCatch, tryCatchThe, MonadExceptOf.tryCatch, ExceptT.tryCatch, ExceptT.mk,
      ExceptT.run, bind, StateT.bind]
    congr 1
    funext p
    cases p.1 <;> rfl
  rw [result, hcatch, Inquiry.eval_bind]
  cases h : (m.run s).eval A M K with
  | mk r t =>
    rw [result, h]
    cases r <;> rfl

theorem result_ask (q : Inquiry α) : (ask q).result A M K s = (.ok (q.eval A M K), s) := by
  have hlift : (ask q).run s =
      (q >>= fun a => (pure (a, s) : Inquiry (α × Machine))) >>= fun p => pure (.ok p.1, p.2) := rfl
  rw [result, hlift, Inquiry.eval_bind, Inquiry.eval_bind]
  rfl

theorem result_checkDepth (h : s.outer + s.frames.length ≤ depthLimit) :
    checkDepth.result A M K s = (.ok (), s) := by
  have hget : (get : Run Machine).result A M K s = (.ok s, s) := rfl
  refine (result_bind_of_ok hget).trans ?_
  rw [if_neg (Nat.not_lt.2 h)]
  rfl

theorem keptAfter_checkDepth : checkDepth.keptAfter A M K s = K := by
  change Inquiry.keptAfter A M ((if depthLimit < s.outer + s.frames.length then fail tooDeep
    else pure () : Run Unit).run s) K = K
  split_ifs <;> rfl

/-- A new frame is there while `m` runs. -/
theorem result_inFrame {f : Frame} (h : s.outer + s.frames.length < depthLimit) (m : Run α) :
    (inFrame f m).result A M K s = (do
      let a ← m
      modify fun s => { s with frames := s.frames.drop 1 }
      pure a : Run α).result A M K { s with frames := f :: s.frames } := by
  have hpush : (modify fun s => { s with frames := f :: s.frames } : Run Unit).result A M K s =
      (.ok (), { s with frames := f :: s.frames }) := rfl
  have hcheck : checkDepth.result A M K { s with frames := f :: s.frames } = (.ok (), _) :=
    result_checkDepth h
  refine (result_bind_of_ok hpush).trans ((result_bind_of_ok hcheck).trans ?_)
  rw [keptAfter_checkDepth]

theorem result_inFrame_of_ok {f : Frame} {m : Run α} {a : α}
    (h : s.outer + s.frames.length < depthLimit)
    (hm : m.result A M K { s with frames := f :: s.frames } = (.ok a, t)) :
    (inFrame f m).result A M K s = (.ok a, { t with frames := t.frames.drop 1 }) :=
  (result_inFrame h m).trans (result_bind_of_ok hm)

theorem result_inFrame_of_error {f : Frame} {m : Run α} {e : RenderFault}
    (h : s.outer + s.frames.length < depthLimit)
    (hm : m.result A M K { s with frames := f :: s.frames } = (.error e, t)) :
    (inFrame f m).result A M K s = (.error e, t) :=
  (result_inFrame h m).trans (result_bind_of_error hm)

/-! ### Writing values and rendering children -/

variable {frame : Frame} {frames : List Frame} {home : String} {low : Lower}

theorem result_lookup {name : String} {v : Value} (hs : s.frames = frame :: frames)
    (hv : inFrame? s.heap name frame = some v) : (lookup name).result A M K s = (.ok v, s) := by
  have hlookup : (lookup name).result A M K s =
      (.ok (((s.frames.findSome? (inFrame? s.heap name)).or (builtin? name)).getD
        (.undefined false)), s) := rfl
  rw [hlookup, hs, List.findSome?_cons, hv]
  rfl

/-- A value that is defined is written as its text. -/
theorem result_emit {v : Value} (hv : v ≠ .undefined false) (hs : s.escaping = .none) :
    (emit v).result A M K s = (.ok (), { s with out := s.out ++ v.shown s.heap }) := by
  have hget : (get : Run Machine).result A M K s = (.ok s, s) := rfl
  have htext : (ofExcept (writtenText s.heap s.escaping v)).result A M K s =
      (.ok (v.shown s.heap), s) := by
    rw [hs, writtenText]
    rfl
  have hemit : emit v = get >>= fun s =>
      ofExcept (writtenText s.heap s.escaping v) >>= write := by
    unfold emit
    split
    · exact absurd rfl hv
    · rfl
  rw [hemit]
  exact (result_bind_of_ok hget).trans (result_bind_of_ok htext)

/-- A text is written as it is. -/
theorem result_emit_text (x : String) (safe : Bool) (hs : s.escaping = .none) :
    (emit (.text x safe)).result A M K s = (.ok (), { s with out := s.out ++ x }) :=
  result_emit (by simp) hs

/-- From this state an activity comes to a value after it has written a text, and the machine is as
`P` says; or it fails with a fault. So it is whatever is kept. -/
def Writes (A : String → Except RenderFault Template) (M : String → Except Failure (List String))
    (P : Machine → Prop) (m : Run α) (s : Machine) (a : α) : Except RenderFault String → Prop
  | .ok x => ∀ K, ∃ t, m.result A M K s = (.ok a, t) ∧ P t ∧ t.out = s.out ++ x
  | .error e => ∀ K, ∃ t, m.result A M K s = (.error e, t)

variable {P Q : Machine → Prop} {m m' : Run α} {f : α → Run β} {a : α} {b : β}
  {r r' : Except RenderFault String}

/-- What an activity writes after steps that write nothing. -/
theorem Writes.of_result_eq (h : ∀ K, ∃ K', m.result A M K s = m'.result A M K' t)
    (hout : t.out = s.out) (hw : Writes A M P m' t a r) : Writes A M P m s a r := by
  cases r with
  | ok x =>
    intro K
    obtain ⟨K', hK⟩ := h K
    obtain ⟨u, hu, hp, hx⟩ := hw K'
    exact ⟨u, hK.trans hu, hp, hx.trans (by rw [hout])⟩
  | error e =>
    intro K
    obtain ⟨K', hK⟩ := h K
    obtain ⟨u, hu⟩ := hw K'
    exact ⟨u, hK.trans hu⟩

theorem Writes.bind (hm : Writes A M P m s a r) (hf : ∀ t, P t → Writes A M Q (f a) t b r') :
    Writes A M Q (m >>= f) s b (do pure ((← r) ++ (← r'))) := by
  cases r with
  | error e =>
    intro K
    obtain ⟨t, ht⟩ := hm K
    exact ⟨t, result_bind_of_error ht⟩
  | ok x =>
    cases r' with
    | error e =>
      intro K
      obtain ⟨t, ht, hp, -⟩ := hm K
      obtain ⟨u, hu⟩ := hf t hp _
      exact ⟨u, (result_bind_of_ok ht).trans hu⟩
    | ok y =>
      intro K
      obtain ⟨t, ht, hp, hx⟩ := hm K
      obtain ⟨u, hu, hq, hy⟩ := hf t hp _
      exact ⟨u, (result_bind_of_ok ht).trans hu, hq, by rw [hy, hx, String.append_assoc]⟩

theorem Writes.blaming (home : String) (line : Nat) (hm : Writes A M P m s a r) :
    Writes A M P (Run.blaming home line m) s a (r.mapError (·.placed home line)) := by
  cases r with
  | error e =>
    intro K
    obtain ⟨t, ht⟩ := hm K
    exact ⟨t, by rw [result_blaming, ht]; rfl⟩
  | ok x =>
    intro K
    obtain ⟨t, ht, hp, hx⟩ := hm K
    exact ⟨t, by rw [result_blaming, ht]; rfl, hp, hx⟩

/-- A step that writes nothing may follow. -/
theorem Writes.bind_of_ok (hm : Writes A M P m s a r)
    (hf : ∀ K t, P t → (f a).result A M K t = (.ok b, t)) : Writes A M P (m >>= f) s b r := by
  cases r with
  | error e =>
    intro K
    obtain ⟨t, ht⟩ := hm K
    exact ⟨t, result_bind_of_error ht⟩
  | ok x =>
    intro K
    obtain ⟨t, ht, hp, hx⟩ := hm K
    exact ⟨t, (Run.result_bind_of_ok ht).trans (hf _ t hp), hp, hx⟩

end Run

end Scaffold.Template
