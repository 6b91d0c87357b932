import Scaffold.Proofs.Template.Confined
import Scaffold.Template.Function
import Scaffold.Template.Test

/-!
# Tests and functions keep within a height

An activity that takes arguments is confined if it is for all arguments within the height
(`Taking.Confined`). Tests and functions are (`Test.confined_named?`, `Builtin.confined_call`).
-/

namespace Scaffold.Template

variable {α β : Type} {Q : α → Prop} {R : β → Prop} {k : Nat} {h : Heap} {v w : Value}
  {vs : List Value}

/-! ### Taking arguments -/

namespace Taking

/-- **With arguments within a height**, the activity keeps within it, and leaves such arguments. -/
def Confined (k : Nat) (Q : α → Prop) (t : Taking α) : Prop :=
  ∀ args : List Value, (∀ v ∈ args, v.Within k) →
    Run.Confined k (fun r => Q r.1 ∧ ∀ v ∈ r.2, v.Within k) (t.run args)

namespace Confined

variable {t : Taking α}

theorem pure {a : α} (ha : Q a) : Confined k Q (pure a) := fun _ hargs => Run.Alike.pure ⟨ha, hargs⟩

theorem throw (e : RenderFault) : Confined k Q (throw e : Taking α) := fun _ _ =>
  Run.Alike.bind (Run.Alike.throw (Q := fun _ => False) e) fun _ h => h.elim

theorem bind {g : α → Taking β} (ht : Confined k Q t) (hg : ∀ a, Q a → Confined k R (g a)) :
    Confined k R (t >>= g) := fun args hargs =>
  (ht args hargs).bind fun r hr => hg r.1 hr.1 r.2 hr.2

theorem lift {m : Run α} (hm : Run.Confined k Q m) : Confined k Q (liftM m : Taking α) :=
  fun _ hargs => hm.bind fun _ ha => Run.Alike.pure ⟨ha, hargs⟩

/-- What would follow a fault does not matter. -/
theorem throw_bind (e : RenderFault) (g : α → Taking β) :
    Confined k R ((MonadExcept.throw e : Taking α) >>= g) :=
  bind (throw (Q := fun _ => False) e) fun _ h => h.elim

theorem ite {c : Prop} [Decidable c] {t' : Taking α} (h : c → Confined k Q t)
    (h' : ¬ c → Confined k Q t') : Confined k Q (if c then t else t') := by
  split_ifs with hc
  · exact h hc
  · exact h' hc

theorem sequential (k : Nat) : Sequential (m := Taking) fun _ Q t _ => Confined k Q t :=
  ⟨pure, bind⟩

theorem mapM {g : α → Taking β} {xs : List α} (hg : ∀ x ∈ xs, Confined k R (g x)) :
    Confined k (fun ys => ∀ y ∈ ys, R y) (xs.mapM g) := (sequential k).mapM (g := g) hg

theorem foldlM {g : β → α → Taking β} {b : β} {xs : List α} (hb : R b)
    (hg : ∀ b, R b → ∀ x ∈ xs, Confined k R (g b x)) : Confined k R (xs.foldlM g b) :=
  (sequential k).foldlM (g := g) hb hg

theorem run' (ht : Confined k Q t) {args : List Value} (hargs : ∀ v ∈ args, v.Within k) :
    Run.Confined k Q (t.run' args) :=
  (ht args hargs).bind fun _ hr => Run.Alike.pure hr.1

theorem heap : Confined k (Heap.Within k) (liftM Run.heap : Taking Heap) := lift .heap

theorem get : Confined k (fun vs => ∀ v ∈ vs, v.Within k) (get : Taking (List Value)) :=
  fun _ hargs => Run.Alike.pure ⟨hargs, hargs⟩

theorem set (hvs : ∀ v ∈ vs, v.Within k) : Confined k (fun _ => True) (set vs : Taking PUnit) :=
  fun _ _ => Run.Alike.pure ⟨trivial, hvs⟩

theorem next? : Confined k (fun v? => ∀ v, v? = some v → v.Within k) next? := by
  refine get.bind fun vs hvs => ?_
  cases vs with
  | nil => exact pure nofun
  | cons v r =>
    obtain ⟨hv, hr⟩ := List.forall_mem_cons.1 hvs
    refine (set hr).bind fun _ _ => pure fun u hu => ?_
    cases hu
    exact hv

theorem value : Confined k (Value.Within k) value := by
  refine next?.bind fun v? hv => ?_
  cases v? with
  | none => exact throw _
  | some v => exact pure (hv v rfl)

theorem rest : Confined k (fun vs => ∀ v ∈ vs, v.Within k) rest :=
  get.bind fun _ hvs => (set (by simp)).bind fun _ _ => pure hvs

theorem asked {form : Value → Run α} (hform : ∀ v, v.Within k → Run.Confined k Q (form v)) :
    Confined k Q (asked form) := by
  refine value.bind fun v hv => ?_
  split
  · exact throw _
  · exact lift (hform v hv)

theorem optional {form : Value → Run α} (hform : ∀ v, v.Within k → Run.Confined k Q (form v)) :
    Confined k (fun a? => ∀ a, a? = some a → Q a) (optional form) := by
  refine next?.bind fun v? hv => ?_
  cases v? with
  | none => exact pure nofun
  | some v =>
    refine ite (fun _ => pure nofun) fun _ => ?_
    refine (lift (hform v (hv v rfl))).bind fun a ha => pure fun b hb => ?_
    cases hb
    exact ha

theorem options : Confined k (EntriesWithin k) options := by
  refine get.bind fun vs hvs => ?_
  split
  next ms hlast =>
    have hms := Value.within_options.1 (hvs _ (List.mem_of_getLast? hlast))
    refine (set fun v hv => hvs v ((List.dropLast_sublist vs).subset hv)).bind fun _ _ => pure ?_
    intro e he
    obtain ⟨m, hm, he⟩ := List.mem_filterMap.1 he
    obtain ⟨name, -, rfl⟩ := Option.map_eq_some_iff.1 he
    exact (hms m hm).2
  · exact pure (by simp [EntriesWithin])

theorem finish : Confined k (fun _ => True) finish := by
  refine get.bind fun vs _ => ?_
  cases vs with
  | nil => exact pure trivial
  | cons v r => exact throw _

end Confined

end Taking

/-! ### Forms of arguments -/

namespace Form

theorem confined_text (v : Value) : Run.Confined k (fun _ => True) (text v) := by
  unfold text
  split
  · exact Run.Alike.throw _
  · exact Run.Confined.heap.bind fun _ _ => Run.Alike.pure trivial

theorem confined_string (v : Value) : Run.Confined k (fun _ => True) (string v) := by
  unfold string
  split
  · exact Run.Alike.pure trivial
  · exact Run.Alike.throw _

theorem confined_bool (v : Value) : Run.Confined k (fun _ => True) (bool v) := by
  unfold bool
  split
  · exact Run.Alike.pure trivial
  · exact Run.Alike.throw _

theorem confined_integer (type : String) (low high : Int) (v : Value) :
    Run.Confined k (fun _ => True) (integer type low high v) := by
  rw [integer]
  cases v.integer? with
  | some i => exact Run.Alike.ite (fun _ => Run.Alike.pure trivial) fun _ => Run.Alike.throw _
  | none => exact Run.Alike.throw _

theorem confined_count (v : Value) : Run.Confined k (fun _ => True) (count v) :=
  (confined_integer _ _ _ v).bind fun _ _ => Run.Alike.pure trivial

end Form

namespace Options

variable {os : Options} {form : Value → Run α}

theorem confined_get (hos : EntriesWithin k os) (name : String)
    (hform : ∀ v, v.Within k → Run.Confined k Q (form v)) :
    Run.Confined k (fun a? => ∀ a, a? = some a → Q a) (os.get name form) := by
  rw [Options.get]
  cases hv : os.lookup name with
  | none => exact Run.Alike.pure nofun
  | some v =>
    refine Run.Alike.ite (fun _ => Run.Alike.pure nofun) fun _ => ?_
    refine (hform v (hos.lookup hv)).bind fun a ha => Run.Alike.pure fun b hb => ?_
    cases hb
    exact ha

theorem confined_onlyFrom (os : Options) (names : List String) :
    Run.Confined k (fun _ => True) (os.onlyFrom names) := by
  rw [onlyFrom]
  split
  · exact Run.Alike.throw _
  · exact Run.Alike.pure trivial

end Options

namespace Taking.Confined

/-- An option in a given form. -/
theorem option {os : Options} {form : Value → Run α} {name : String} (hos : EntriesWithin k os)
    (hform : ∀ v, v.Within k → Run.Confined k Q (form v)) :
    Confined k (fun a? => ∀ a, a? = some a → Q a) (liftM (os.get name form) : Taking (Option α)) :=
  lift (Options.confined_get hos name hform)

theorem onlyFrom {os : Options} {names : List String} :
    Confined k (fun _ => True) (liftM (os.onlyFrom names) : Taking Unit) :=
  lift (Options.confined_onlyFrom os names)

/-- Any value, as a text. -/
theorem text : Confined k (fun _ => True) (Taking.asked Form.text) :=
  asked fun v _ => Form.confined_text v

theorem string : Confined k (fun _ => True) (Taking.asked Form.string) :=
  asked fun v _ => Form.confined_string v

end Taking.Confined

/-! ### Tests -/

open Taking.Confined (value finish heap rest asked optional options text string)

namespace Test

@[simp] theorem confined_ofValue (p : Heap → Value → Bool) :
    Taking.Confined k (fun _ => True) (ofValue p) :=
  value.bind fun _ _ => finish.bind fun _ _ => heap.bind fun _ _ => .pure trivial

@[simp] theorem confined_ofPair (p : Heap → Value → Value → Bool) :
    Taking.Confined k (fun _ => True) (ofPair p) :=
  value.bind fun _ _ => value.bind fun _ _ => finish.bind fun _ _ => heap.bind fun _ _ =>
    .pure trivial

@[simp] theorem confined_ofString (p : String → Bool) :
    Taking.Confined k (fun _ => True) (ofString p) :=
  string.bind fun _ _ => finish.bind fun _ _ => .pure trivial

@[simp] theorem confined_ofTexts (p : List Char → List Char → Bool) :
    Taking.Confined k (fun _ => True) (ofTexts p) :=
  text.bind fun _ _ => text.bind fun _ _ => finish.bind fun _ _ =>
    .pure trivial

@[simp] theorem confined_contained : Taking.Confined k (fun _ => True) contained := by
  refine value.bind fun v _ => value.bind fun w _ => finish.bind fun _ _ => heap.bind fun h _ => ?_
  split
  · exact .pure trivial
  · exact .lift (.ofExcept fun _ _ => trivial)

@[simp] theorem confined_ordered (p : Ordering → Bool) :
    Taking.Confined k (fun _ => True) (ordered p) :=
  confined_ofPair _

theorem confined_sign? {name : String} {t : Taking Bool} (ht : sign? name = some t) :
    Taking.Confined k (fun _ => True) t := by
  unfold sign? at ht
  split at ht
  case h_7 => cases ht
  all_goals
    obtain rfl := Option.some.inj ht
    simp

/-- **Every test** keeps within the height. -/
theorem confined_named? {isFilter isTest : String → Bool} {name : String} {t : Taking Bool}
    (ht : named? isFilter isTest name = some t) : Taking.Confined k (fun _ => True) t := by
  unfold named? at ht
  split at ht
  case h_37 => exact confined_sign? ht
  all_goals
    obtain rfl := Option.some.inj ht
    simp

end Test

/-! ### Functions -/

namespace Builtin

theorem confined_rangeOf : Taking.Confined k (Value.Within k) rangeOf := by
  have hint : ∀ v, v.Within k → Run.Confined k (fun _ => True) (Form.int64 v) := fun v _ =>
    Form.confined_integer _ _ _ v
  refine (asked hint).bind fun first _ => (optional hint).bind fun second _ => ?_
  refine (optional hint).bind fun step _ => finish.bind fun _ _ => ?_
  dsimp only
  refine .ite (fun _ => .throw_bind _ _) fun _ => .ite (fun _ => .throw_bind _ _) fun _ => .pure ?_
  simp

theorem confined_mapOf : Taking.Confined k (Value.Within k) mapOf := by
  refine options.bind fun os hos => (optional fun v hv => .pure hv).bind fun v? hv => ?_
  refine finish.bind fun _ _ => heap.bind fun h hh => ?_
  have hmap : ∀ own, PairsWithin k own → Taking.Confined k (Value.Within k)
      (pure (.map (Member.putAll h (own ++ os.map fun o => (Value.ofText o.1, o.2))))) := by
    refine fun own hown => .pure (Value.within_map.2 (Member.within_putAll ?_))
    exact List.forall_mem_append.2
      ⟨hown, List.forall_mem_map.2 fun o ho => ⟨Value.within_ofText _, hos o ho⟩⟩
  cases v? with
  | none => exact .bind (.pure (by simp [PairsWithin])) hmap
  | some v =>
    cases hps : v.pairs? h with
    | none => simpa only [hps] using .throw_bind _ _
    | some ps => simpa only [hps] using .bind (.pure ((hv v rfl).pairs? hh hps)) hmap

theorem confined_spaceOf : Taking.Confined k (Value.Within k) spaceOf := by
  refine (optional fun v hv => .pure hv).bind fun v? hv => finish.bind fun _ _ => ?_
  refine heap.bind fun h hh => ?_
  extract_lets space
  have hspace : ∀ es, EntriesWithin k es → Taking.Confined k (Value.Within k) (space es) := by
    intro es hes
    have hnone : EntriesWithin k [] := by simp [EntriesWithin]
    have hcell : (Cell.fields (es.foldl (fun acc e => Entries.put e.1 e.2 acc) [])).Within k :=
      hnone.foldl_put hes
    exact .bind (.lift (.newCell hcell)) fun _ _ => .pure (Value.within_space _)
  cases v? with
  | none => exact .bind (.pure (by simp [EntriesWithin])) hspace
  | some v =>
    cases hps : v.pairs? h with
    | none => simpa only [hps] using .throw_bind _ _
    | some ps =>
      simp only [hps]
      refine .bind (.pure fun e he => ?_) hspace
      obtain ⟨p, hp, he⟩ := List.mem_filterMap.1 he
      obtain ⟨name, -, rfl⟩ := Option.map_eq_some_iff.1 he
      exact ((hv v rfl).pairs? hh hps p hp).2

theorem confined_inspected : Taking.Confined k (Value.Within k) inspected := by
  refine rest.bind fun vs _ => heap.bind fun h _ => ?_
  split
  · refine .bind (.lift (.ask _)) fun names _ => .bind (.lift .get) fun s _ => ?_
    exact .pure (Value.within_ofText _)
  · exact .pure (Value.within_ofText _)
  · exact .pure (Value.within_ofText _)

/-- **Every function** keeps within the height. -/
theorem confined_call (f : Builtin) (hvs : ∀ v ∈ vs, v.Within k) :
    Run.Confined k (Value.Within k) (f.call vs) := by
  cases f with
  | range => exact confined_rangeOf.run' hvs
  | dictionary => exact confined_mapOf.run' hvs
  | space => exact confined_spaceOf.run' hvs
  | inspect => exact confined_inspected.run' hvs

end Builtin

end Scaffold.Template
