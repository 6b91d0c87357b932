import Scaffold.Proofs.Template.Within

/-!
# Activities that keep within a height

Two activities are alike on the machines within a height if they do the same there, whatever answers
they get, and leave machines within it (`Run.Alike`). An activity that is alike to itself is confined:
no node comes in that is not lower. Both are kept by every way to put activities together
(`Alike.bind`, `Alike.tryCatch`, `Alike.mapM`, …), and what reads and changes the machine is confined.
-/

namespace Scaffold

variable {α β γ : Type} {Q : α → Prop} {R : β → Prop}

/-! ### What an inquiry can come to -/

namespace Inquiry

variable {q : Inquiry α} {f g : α → Inquiry β}

/-- **Whatever the answers are**, the result is such. -/
def All (Q : α → Prop) : Inquiry α → Prop
  | done a => Q a
  | remark _ rest => rest.All Q
  | template _ rest => ∀ t, (rest t).All Q
  | modes _ rest => ∀ ms, (rest ms).All Q
  | kept rest => ∀ names, (rest names).All Q

theorem all_true (q : Inquiry α) : q.All fun _ => True := by
  induction q with
  | done a => trivial
  | remark text rest ih => exact ih
  | template name rest ih => exact ih
  | modes tag rest ih => exact ih
  | kept rest ih => exact ih

theorem All.imp {R : α → Prop} (h : q.All Q) (hQR : ∀ a, Q a → R a) : q.All R := by
  induction q with
  | done a => exact hQR a h
  | remark text rest ih => exact ih h
  | template name rest ih => exact fun t => ih t (h t)
  | modes tag rest ih => exact fun ms => ih ms (h ms)
  | kept rest ih => exact fun names => ih names (h names)

theorem All.bind (h : q.All Q) (hf : ∀ a, Q a → (f a).All R) : (q >>= f).All R := by
  change (q.bind f).All R
  induction q with
  | done a => exact hf a h
  | remark text rest ih => exact ih h
  | template name rest ih => exact fun t => ih t (h t)
  | modes tag rest ih => exact fun ms => ih ms (h ms)
  | kept rest ih => exact fun names => ih names (h names)

/-- What follows matters only for results that can come. -/
theorem All.bind_congr (h : q.All Q) (hf : ∀ a, Q a → f a = g a) : q >>= f = q >>= g := by
  change q.bind f = q.bind g
  induction q with
  | done a => exact hf a h
  | remark text rest ih => exact congrArg (remark text) (ih h)
  | template name rest ih => exact congrArg (template name) (funext fun t => ih t (h t))
  | modes tag rest ih => exact congrArg (modes tag) (funext fun ms => ih ms (h ms))
  | kept rest ih => exact congrArg kept (funext fun names => ih names (h names))

end Inquiry

/-! ### Lists of activities -/

section

variable {m : Type → Type} [Monad m] {P : ∀ α : Type, (α → Prop) → m α → m α → Prop}

/-- **A relation between activities that sequences keep**, with what is known of their results. -/
structure Sequential (P : ∀ α : Type, (α → Prop) → m α → m α → Prop) : Prop where
  pure : ∀ {α : Type} {Q : α → Prop} {a : α}, Q a → P α Q (pure a) (pure a)
  bind : ∀ {α β : Type} {Q : α → Prop} {R : β → Prop} {x y : m α} {f g : α → m β}, P α Q x y →
    (∀ a, Q a → P β R (f a) (g a)) → P β R (x >>= f) (y >>= g)

namespace Sequential

variable {xs : List α} {f g : α → m β}

theorem mapM (h : Sequential P) (hfg : ∀ x ∈ xs, P β R (f x) (g x)) :
    P (List β) (fun ys => ∀ y ∈ ys, R y) (xs.mapM f) (xs.mapM g) := by
  suffices ∀ acc : List β, (∀ y ∈ acc, R y) →
      P (List β) (fun ys => ∀ y ∈ ys, R y) (List.mapM.loop f xs acc) (List.mapM.loop g xs acc) from
    this [] (by simp)
  induction xs with
  | nil =>
    intro acc hacc
    exact h.pure fun y hy => hacc y (List.mem_reverse.1 hy)
  | cons x xs ih =>
    obtain ⟨hx, hxs⟩ := List.forall_mem_cons.1 hfg
    intro acc hacc
    exact h.bind hx fun y hy => ih hxs _ (List.forall_mem_cons.2 ⟨hy, hacc⟩)

theorem filterM {p p' : α → m Bool} (h : Sequential P)
    (hp : ∀ x ∈ xs, P Bool (fun _ => True) (p x) (p' x)) :
    P (List α) (fun ys => ∀ y ∈ ys, y ∈ xs) (xs.filterM p) (xs.filterM p') := by
  have hloop : ∀ rest acc : List α, (∀ x ∈ rest, x ∈ xs) → (∀ y ∈ acc, y ∈ xs) →
      P (List α) (fun ys => ∀ y ∈ ys, y ∈ xs) (List.filterAuxM p rest acc)
        (List.filterAuxM p' rest acc) := by
    intro rest
    induction rest with
    | nil => exact fun acc _ hacc => h.pure hacc
    | cons x rest ih =>
      intro acc hrest hacc
      obtain ⟨hx, hrest⟩ := List.forall_mem_cons.1 hrest
      refine h.bind (hp x hx) fun b _ => ih _ hrest ?_
      cases b with
      | true => exact List.forall_mem_cons.2 ⟨hx, hacc⟩
      | false => exact hacc
  exact h.bind (hloop xs [] (fun x hx => hx) (by simp)) fun ys hys =>
    h.pure fun y hy => hys y (List.mem_reverse.1 hy)

theorem foldlM {f g : β → α → m β} {b : β} (h : Sequential P) (hb : R b)
    (hfg : ∀ b, R b → ∀ x ∈ xs, P β R (f b x) (g b x)) :
    P β R (xs.foldlM f b) (xs.foldlM g b) := by
  induction xs generalizing b with
  | nil => exact h.pure hb
  | cons x xs ih =>
    refine h.bind (hfg b hb x List.mem_cons_self) fun c hc => ih hc ?_
    exact fun b hb y hy => hfg b hb y (List.mem_cons_of_mem x hy)

theorem forM {f g : α → m PUnit} (h : Sequential P)
    (hfg : ∀ x ∈ xs, P PUnit (fun _ => True) (f x) (g x)) :
    P PUnit (fun _ => True) (xs.forM f) (xs.forM g) := by
  induction xs with
  | nil => exact h.pure trivial
  | cons x xs ih =>
    obtain ⟨hx, hxs⟩ := List.forall_mem_cons.1 hfg
    exact h.bind hx fun _ _ => ih hxs

end Sequential

end

/-! ### Activities -/

namespace Template.Run

variable {k : Nat} {x y : Run α} {f g : α → Run β} {s : Machine}

/-- A machine within the height, and a result of which `Q` holds if there is one. -/
def Lands (k : Nat) (Q : α → Prop) (p : Except RenderFault α × Machine) : Prop :=
  p.2.Within k ∧ ∀ a, p.1 = .ok a → Q a

/-- **Two activities do the same** on the machines within a height, and keep these within it. Their
results are such that `Q` holds. -/
def Alike (k : Nat) (Q : α → Prop) (x y : Run α) : Prop :=
  ∀ s : Machine, s.Within k → x.run s = y.run s ∧ (x.run s).All (Lands k Q)

/-- **An activity keeps within a height.** -/
abbrev Confined (k : Nat) (Q : α → Prop) (x : Run α) : Prop := Alike k Q x x

theorem confined_iff : Confined k Q x ↔ ∀ s : Machine, s.Within k → (x.run s).All (Lands k Q) :=
  ⟨fun h s hs => (h s hs).2, fun h s hs => ⟨rfl, h s hs⟩⟩

/-- What comes next is told how an activity ended. -/
def next (f : α → Run β) (c : RenderFault → Run β) : Except RenderFault α → Run β
  | .ok a => f a
  | .error e => c e

theorem run_bind (x : Run α) (f : α → Run β) (s : Machine) :
    (x >>= f).run s = x.run s >>= fun p => (next f throw p.1).run p.2 := by
  change (x.run s >>= fun p => (ExceptT.bindCont f p.1).run p.2) = _
  congr 1
  funext p
  cases p.1 <;> rfl

theorem run_tryCatch (x : Run α) (c : RenderFault → Run α) (s : Machine) :
    (tryCatch x c).run s = x.run s >>= fun p => (next pure c p.1).run p.2 := by
  simp only [MonadExcept.tryCatch, tryCatchThe, MonadExceptOf.tryCatch, ExceptT.tryCatch,
    ExceptT.mk, ExceptT.run, Bind.bind, StateT.bind]
  congr 1
  funext p
  cases p.1 <;> rfl

namespace Alike

theorem pure {a : α} (ha : Q a) : Confined k Q (pure a : Run α) := by
  refine confined_iff.2 fun s hs => ⟨hs, ?_⟩
  rintro b hb
  cases hb
  exact ha

theorem throw (e : RenderFault) : Confined k Q (throw e : Run α) := by
  refine confined_iff.2 fun s hs => ⟨hs, ?_⟩
  rintro b hb
  cases hb

theorem imp {Q' : α → Prop} (h : Alike k Q x y) (hQ : ∀ a, Q a → Q' a) : Alike k Q' x y := by
  intro s hs
  obtain ⟨heq, hall⟩ := h s hs
  exact ⟨heq, hall.imp fun p hp => ⟨hp.1, fun a ha => hQ a (hp.2 a ha)⟩⟩

/-- What comes next is alike, however an activity ended. -/
theorem run_next {f g : α → Run β} {c d : RenderFault → Run β} (h : Alike k Q x y)
    (hfg : ∀ a, Q a → Alike k R (f a) (g a)) (hcd : ∀ e, Alike k R (c e) (d e)) {s : Machine}
    (hs : s.Within k) :
    (x.run s >>= fun p => (next f c p.1).run p.2) = (y.run s >>= fun p => (next g d p.1).run p.2) ∧
      (x.run s >>= fun p => (next f c p.1).run p.2).All (Lands k R) := by
  obtain ⟨heq, hall⟩ := h s hs
  have hnext : ∀ p, Lands k Q p → (next f c p.1).run p.2 = (next g d p.1).run p.2 ∧
      ((next f c p.1).run p.2).All (Lands k R) := by
    rintro ⟨r, t⟩ ⟨ht, hr⟩
    cases r with
    | ok a => exact hfg a (hr a rfl) t ht
    | error e => exact hcd e t ht
  rw [← heq]
  exact ⟨hall.bind_congr fun p hp => (hnext p hp).1, hall.bind fun p hp => (hnext p hp).2⟩

/-- **One after the other.** -/
theorem bind (h : Alike k Q x y) (hfg : ∀ a, Q a → Alike k R (f a) (g a)) :
    Alike k R (x >>= f) (y >>= g) := by
  intro s hs
  rw [run_bind, run_bind]
  exact h.run_next hfg throw hs

/-- What would follow a fault does not matter. -/
theorem throw_bind (e : RenderFault) : Alike k R ((MonadExcept.throw e : Run α) >>= f)
    ((MonadExcept.throw e : Run α) >>= g) := bind (throw (Q := fun _ => False) e) fun _ h => h.elim

/-- Faults are dealt with by activities that are alike. -/
theorem tryCatch {c c' : RenderFault → Run α} (h : Alike k Q x y)
    (hc : ∀ e, Alike k Q (c e) (c' e)) : Alike k Q (tryCatch x c) (tryCatch y c') := by
  intro s hs
  rw [run_tryCatch, run_tryCatch]
  exact h.run_next (fun _ => pure) hc hs

theorem blaming (home : String) (line : Nat) (h : Alike k Q x y) :
    Alike k Q (blaming home line x) (blaming home line y) := h.tryCatch fun _ => throw _

theorem ite {c : Prop} [Decidable c] {x' y' : Run α} (h : c → Alike k Q x y)
    (h' : ¬ c → Alike k Q x' y') : Alike k Q (if c then x else x') (if c then y else y') := by
  split_ifs with hc
  · exact h hc
  · exact h' hc

theorem sequential (k : Nat) : Sequential (m := Run) fun _ Q => Alike k Q := ⟨Alike.pure, Alike.bind⟩

theorem mapM {xs : List α} (hfg : ∀ x ∈ xs, Alike k R (f x) (g x)) :
    Alike k (fun ys => ∀ y ∈ ys, R y) (xs.mapM f) (xs.mapM g) := (sequential k).mapM hfg

theorem filterM {xs : List α} {f g : α → Run Bool}
    (hfg : ∀ x ∈ xs, Alike k (fun _ => True) (f x) (g x)) :
    Alike k (fun ys => ∀ y ∈ ys, y ∈ xs) (xs.filterM f) (xs.filterM g) := (sequential k).filterM hfg

theorem foldlM {xs : List α} {f g : β → α → Run β} {b : β} (hb : R b)
    (hfg : ∀ b, R b → ∀ x ∈ xs, Alike k R (f b x) (g b x)) :
    Alike k R (xs.foldlM f b) (xs.foldlM g b) := (sequential k).foldlM hb hfg

theorem forM {xs : List α} {f g : α → Run PUnit}
    (hfg : ∀ x ∈ xs, Alike k (fun _ => True) (f x) (g x)) :
    Alike k (fun _ => True) (xs.forM f) (xs.forM g) := (sequential k).forM hfg

end Alike

/-! ### The machine -/

namespace Confined

open Value (Within)

variable {v w : Value} {vs : List Value} {name : String}

theorem get : Confined k (Machine.Within k) (get : Run Machine) :=
  confined_iff.2 fun s hs => ⟨hs, fun t ht => by cases ht; exact hs⟩

theorem set (hs : s.Within k) : Confined k (fun _ => True) (set s : Run PUnit) :=
  confined_iff.2 fun _ _ => ⟨hs, fun _ _ => trivial⟩

theorem modify {f : Machine → Machine} (hf : ∀ s : Machine, s.Within k → (f s).Within k) :
    Confined k (fun _ => True) (modify f : Run PUnit) :=
  confined_iff.2 fun s hs => ⟨hf s hs, fun _ _ => trivial⟩

theorem ofExcept {r : Except RenderFault α} (h : ∀ a, r = .ok a → Q a) :
    Confined k Q (ofExcept r) := by
  cases r with
  | ok a => exact Alike.pure (h a rfl)
  | error e => exact Alike.throw e

/-- Answers hold no nodes. -/
theorem ask (q : Inquiry α) : Confined k (fun _ => True) (ask q) := by
  have hrun : ∀ s : Machine, (Run.ask q).run s = (q >>= fun a =>
      (Pure.pure (a, s) : Inquiry (α × Machine))) >>= fun p => Pure.pure (.ok p.1, p.2) :=
    fun _ => rfl
  refine confined_iff.2 fun s hs => ?_
  rw [hrun]
  have hfirst : (q >>= fun a => (Pure.pure (a, s) : Inquiry (α × Machine))).All (·.2 = s) :=
    q.all_true.bind fun a _ => rfl
  exact hfirst.bind fun p hp => ⟨hp ▸ hs, fun _ _ => trivial⟩

theorem askOr (toFault : Failure → RenderFault) (q : Inquiry (Except Failure α)) :
    Confined k (fun _ => True) (askOr toFault q) := by
  refine (ask q).bind fun r _ => ?_
  cases r with
  | ok a => exact Alike.pure trivial
  | error f => exact Alike.throw _

theorem heap : Confined k (Heap.Within k) heap := get.bind fun _ hs => Alike.pure hs.heap

theorem newCell {c : Cell} (hc : c.Within k) : Confined k (fun _ => True) (newCell c) :=
  get.bind fun s hs => (set (s := { s with heap := (s.heap.new c).2 })
    ⟨hs.heap.new hc, hs.frames⟩).bind fun _ _ => Alike.pure trivial

theorem setCell {c : Cell} (hc : c.Within k) (n : Nat) : Confined k (fun _ => True) (setCell n c) :=
  modify fun _ hs => ⟨hs.heap.set hc n, hs.frames⟩

theorem write (text : String) : Confined k (fun _ => True) (write text) :=
  modify fun _ hs => ⟨hs.heap, hs.frames⟩

theorem checkDepth : Confined k (fun _ => True) checkDepth :=
  get.bind fun _ _ => Alike.ite (fun _ => Alike.throw _) fun _ => Alike.pure trivial

end Confined

namespace Alike

theorem inFrame {f : Frame} (hf : f.Within k) (h : Alike k Q x y) :
    Alike k Q (inFrame f x) (inFrame f y) := by
  have hpush : Confined k (fun _ => True)
      (modify fun s : Machine => { s with frames := f :: s.frames } : Run PUnit) :=
    .modify fun s hs => ⟨hs.heap, List.forall_mem_cons.2 ⟨hf, hs.frames⟩⟩
  have hpop : Confined k (fun _ => True)
      (modify fun s : Machine => { s with frames := s.frames.drop 1 } : Run PUnit) :=
    .modify fun s hs => ⟨hs.heap, fun g hg => hs.frames g (List.mem_of_mem_drop hg)⟩
  exact hpush.bind fun _ _ => Confined.checkDepth.bind fun _ _ => h.bind fun a ha =>
    hpop.bind fun _ _ => Alike.pure ha

theorem captured (discarding : Bool) (h : Alike k Q x y) :
    Alike k (fun p => Q p.1) (captured discarding x) (captured discarding y) := by
  refine Confined.get.bind fun s hs => Alike.bind (Confined.set ⟨hs.heap, hs.frames⟩) fun _ _ => ?_
  refine h.bind fun a ha => Confined.get.bind fun t ht => ?_
  exact Alike.bind (Confined.modify fun u hu => ⟨hu.heap, hu.frames⟩) fun _ _ => Alike.pure ha

end Alike

namespace Confined

variable {v w : Value} {vs : List Value} {name : String}

theorem textValue (text : String) : Confined k (Value.Within k) (textValue text) :=
  get.bind fun _ _ => Alike.pure (Value.within_text _ _)

theorem lookup? (name : String) : Confined k (fun v? => ∀ v, v? = some v → v.Within k)
    (lookup? name) := by
  refine get.bind fun s hs => Alike.pure fun v hv => ?_
  rcases Option.or_eq_some_iff.1 hv with hv | ⟨-, hv⟩
  · obtain ⟨f, hf, hv⟩ := List.exists_of_findSome?_eq_some hv
    exact (hs.frames f hf).inFrame? hs.heap hv
  · unfold builtin? at hv
    split at hv <;> cases hv <;> exact Value.within_builtin _

theorem lookup (name : String) : Confined k (Value.Within k) (lookup name) := by
  refine (lookup? name).bind fun v? hv => Alike.pure ?_
  exact Value.within_getD hv (Value.within_undefined false)

theorem assign (hv : v.Within k) : Confined k (fun _ => True) (assign name v) := by
  refine get.bind fun s hs => ?_
  cases hframes : s.frames with
  | nil => exact Alike.pure trivial
  | cons f r =>
    obtain ⟨hf, hr⟩ := List.forall_mem_cons.1 (hframes ▸ hs.frames)
    refine set ⟨?_, List.forall_mem_cons.2 ⟨⟨hf.ground, hf.locals.put hv⟩, hr⟩⟩
    cases f.closure with
    | none => exact hs.heap
    | some n =>
      have hfields : (Cell.fields (Entries.put name v (s.heap.fields n))).Within k :=
        (hs.heap.fields n).put hv
      exact hs.heap.set hfields n

theorem closure : Confined k (fun _ => True) closure := by
  have hempty : (Cell.fields []).Within k := by simp [Cell.Within, EntriesWithin]
  refine get.bind fun s hs => ?_
  cases hframes : s.frames with
  | nil => exact newCell hempty
  | cons f r =>
    obtain ⟨hf, hr⟩ := List.forall_mem_cons.1 (hframes ▸ hs.frames)
    cases hc : f.closure with
    | some n => simpa only [hc] using Alike.pure trivial
    | none =>
      simp only [hc]
      refine Alike.bind (set ⟨hs.heap.new hempty, ?_⟩) fun _ _ => Alike.pure trivial
      exact List.forall_mem_cons.2 ⟨⟨hf.ground, hf.locals⟩, hr⟩

theorem enclose (cell : Nat) (name : String) : Confined k (fun _ => True) (enclose cell name) := by
  refine (lookup name).bind fun v hv => heap.bind fun h hh => ?_
  cases (h.fields cell).lookup name with
  | some w => exact Alike.pure trivial
  | none =>
    have hfields : (Cell.fields (Entries.put name v (h.fields cell))).Within k :=
      (hh.fields cell).put hv
    exact setCell hfields cell

theorem truth (v : Value) : Confined k (fun _ => True) (truth v) := by
  unfold Run.truth
  split
  · exact Alike.throw _
  · exact heap.bind fun _ _ => Alike.pure trivial

theorem iterated (hv : v.Within k) : Confined k (fun vs => ∀ w ∈ vs, w.Within k) (iterated v) := by
  unfold Run.iterated
  split
  · exact Alike.throw _
  · refine heap.bind fun h _ => ?_
    cases hvs : v.items? h with
    | some vs => exact Alike.pure (hv.items? hvs)
    | none => exact Alike.throw _

theorem part {v? : Option Value} (hv : ∀ v, v? = some v → v.Within k) :
    Confined k (Value.Within k) (part w v?) := by
  cases v? with
  | some v => exact Alike.pure (hv v rfl)
  | none => exact Alike.ite (fun _ => Alike.throw _) fun _ => Alike.pure (Value.within_undefined _)

theorem attributeOf (hv : v.Within k) : Confined k (Value.Within k) (attributeOf v name) :=
  heap.bind fun _ hh => part fun _ hw => hv.attribute? hh hw

theorem itemOf (hv : v.Within k) (key : Value) : Confined k (Value.Within k) (itemOf v key) :=
  heap.bind fun _ hh => part fun _ hw => hv.item? hh hw

theorem follow (hv : v.Within k) (path : String) : Confined k (Value.Within k) (follow v path) := by
  refine Alike.foldlM hv fun u hu piece _ => ?_
  rw [follow.step]
  cases Number.natural? 10 piece.toList with
  | some n => exact itemOf hu _
  | none => exact attributeOf hu

theorem followOr (hv : v.Within k) (path : String) (hw : w.Within k) :
    Confined k (Value.Within k) (followOr v path w) := by
  have hfound : Confined k (fun v? => ∀ v, v? = some v → v.Within k)
      (tryCatch (some <$> Run.follow v path) fun _ => pure none) := by
    refine Alike.tryCatch ((follow hv path).bind fun u hu => Alike.pure fun u' hu' => ?_) fun _ =>
      Alike.pure fun u hu => by cases hu
    cases hu'
    exact hu
  refine hfound.bind fun v? hv => ?_
  cases v? with
  | none => exact Alike.pure hw
  | some u => exact Alike.pure (by split_ifs <;> [exact hw; exact hv u rfl])

theorem emit (v : Value) : Confined k (fun _ => True) (emit v) := by
  unfold Run.emit
  split
  · exact Alike.throw _
  · exact get.bind fun _ _ => (ofExcept fun _ _ => trivial).bind fun text _ => write text

end Confined

end Template.Run

end Scaffold
