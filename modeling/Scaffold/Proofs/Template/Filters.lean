import Scaffold.Proofs.Template.Taking
import Scaffold.Template.Filter.Table

/-!
# Filters keep within a height

Filters put together what they are given: every item of a result was an item of what went in, or holds
no node. So each filter is confined, whichever filters and tests it applies in turn
(`confined_apply`).
-/

namespace Scaffold.Template.Filter

open Taking.Confined (value finish heap rest asked optional options next? text string
  option onlyFrom)

variable {k : Nat} {h : Heap} {v w : Value} {vs : List Value}

/-! ### Of texts -/

@[simp] theorem confined_onText (f : String → String) :
    Taking.Confined k (Value.Within k) (onText f) :=
  text.bind fun _ _ => finish.bind fun _ _ => .pure (Value.within_ofText _)

@[simp] theorem confined_safe : Taking.Confined k (Value.Within k) safe :=
  text.bind fun _ _ => finish.bind fun _ _ => .pure (Value.within_text _ _)

@[simp] theorem confined_replace : Taking.Confined k (Value.Within k) replace :=
  text.bind fun _ _ => text.bind fun _ _ => text.bind fun _ _ => finish.bind fun _ _ =>
    .pure (Value.within_ofText _)

@[simp] theorem confined_trimmed : Taking.Confined k (Value.Within k) trimmed :=
  text.bind fun _ _ => (optional fun v _ => Form.confined_text v).bind fun _ _ =>
    finish.bind fun _ _ => .pure (Value.within_ofText _)

/-- A list of texts. -/
theorem within_texts (css : List (List Char)) : (Value.list (css.map ofChars)).Within k :=
  Value.within_list.2 (List.forall_mem_map.2 fun _ _ => Value.within_ofText _)

@[simp] theorem confined_split : Taking.Confined k (Value.Within k) split := by
  refine text.bind fun s _ => (optional fun v _ => Form.confined_text v).bind fun sep _ => ?_
  refine (optional fun v _ => Form.confined_integer _ _ _ v).bind fun splits _ => ?_
  exact finish.bind fun _ _ => .pure (within_texts _)

@[simp] theorem confined_splitLines : Taking.Confined k (Value.Within k) splitLines :=
  text.bind fun _ _ => finish.bind fun _ _ => .pure (within_texts _)

@[simp] theorem confined_indent : Taking.Confined k (Value.Within k) indent := by
  refine text.bind fun s _ => (asked fun v _ => Form.confined_count v).bind fun width _ => ?_
  refine (optional fun v _ => Form.confined_bool v).bind fun first _ => ?_
  refine (optional fun v _ => Form.confined_bool v).bind fun blanks _ => finish.bind fun _ _ => ?_
  exact .pure (Value.within_ofText _)

/-! ### Of numbers -/

@[simp] theorem confined_round : Taking.Confined k (Value.Within k) round := by
  refine value.bind fun v hv => (optional fun v _ => Form.confined_integer _ _ _ v).bind fun _ _ => ?_
  refine finish.bind fun _ _ => ?_
  split
  · exact .pure hv
  · exact .pure (Value.within_real _)
  · exact .throw _

@[simp] theorem confined_abs : Taking.Confined k (Value.Within k) abs := by
  refine value.bind fun v _ => finish.bind fun _ _ => ?_
  split
  · exact .pure (Value.within_int _)
  · exact .pure (Value.within_real _)
  · exact .throw _

theorem confined_writtenReal (s : String) : Run.Confined k (fun _ => True) (writtenReal s) := by
  rw [writtenReal]
  split
  · exact .pure trivial
  · exact .throw _

@[simp] theorem confined_int : Taking.Confined k (Value.Within k) int := by
  refine value.bind fun v hv => finish.bind fun _ _ => ?_
  cases v with
  | text s safe =>
    cases hi : writtenInteger? s.toList with
    | some i => simpa only [hi] using .pure (Value.within_int i)
    | none =>
      simp only [hi]
      exact .bind (.lift (confined_writtenReal s)) fun _ _ => .pure (Value.within_int _)
  | undefined _ | none | bool _ | int _ | real _ => exact .pure (Value.within_int _)
  | _ => exact .throw _

@[simp] theorem confined_float : Taking.Confined k (Value.Within k) float := by
  refine value.bind fun v hv => finish.bind fun _ _ => ?_
  cases v with
  | text s safe => exact .bind (.lift (confined_writtenReal s)) fun _ _ => .pure (Value.within_real _)
  | undefined _ | none | bool _ | int _ | real _ => exact .pure (Value.within_real _)
  | _ => exact .throw _

/-! ### Of lists and maps -/

theorem mem_sortBy {α : Type} {f : α → α → Ordering} {a : α} {xs : List α} :
    a ∈ sortBy f xs ↔ a ∈ xs := List.mem_mergeSort

theorem mem_reversedIf {α : Type} {c : Prop} [Decidable c] {a : α} {xs : List α} :
    a ∈ (if c then xs.reverse else xs) ↔ a ∈ xs := by
  split_ifs <;> simp

theorem confined_itemsOr (detail : String) (hv : v.Within k) :
    Run.Confined k (fun vs => ∀ w ∈ vs, w.Within k) (itemsOr detail v) :=
  (Run.Confined.iterated hv).tryCatch fun _ => .throw _

theorem confined_membersOf (hv : v.Within k) : Run.Confined k (PairsWithin k) (membersOf v) := by
  refine Run.Confined.heap.bind fun h hh => ?_
  cases hps : v.pairs? h with
  | some ps => exact .pure (hv.pairs? hh hps)
  | none => exact .throw _

@[simp] theorem confined_length : Taking.Confined k (Value.Within k) length := by
  refine value.bind fun v _ => finish.bind fun _ _ => heap.bind fun h _ => ?_
  cases v.length? h with
  | some n => exact .pure (Value.within_int _)
  | none => exact .throw _

theorem within_pairs {ps : List (Value × Value)} (hps : PairsWithin k ps) :
    (Value.list (ps.map fun p => .pair p.1 p.2)).Within k :=
  Value.within_list.2 (List.forall_mem_map.2 fun p hp => Value.within_pair (hps p hp).1 (hps p hp).2)

@[simp] theorem confined_dictsort : Taking.Confined k (Value.Within k) dictsort := by
  refine options.bind fun os hos => value.bind fun v hv => finish.bind fun _ _ => ?_
  refine heap.bind fun h _ => .bind (.lift (confined_membersOf hv)) fun ps hps => ?_
  refine (option hos fun v _ => Form.confined_string v).bind fun _ _ => ?_
  refine (option hos fun v _ => Form.confined_bool v).bind fun strict _ => ?_
  refine (option hos fun v _ => Form.confined_bool v).bind fun reversed _ => ?_
  refine onlyFrom.bind fun _ _ => .pure (within_pairs fun p hp => ?_)
  exact hps p (mem_sortBy.1 (mem_reversedIf.1 hp))

@[simp] theorem confined_items : Taking.Confined k (Value.Within k) items :=
  value.bind fun _ hv => finish.bind fun _ _ => .bind (.lift (confined_membersOf hv)) fun _ hps =>
    .pure (within_pairs hps)

@[simp] theorem confined_reverse : Taking.Confined k (Value.Within k) reverse := by
  refine value.bind fun v hv => finish.bind fun _ _ => ?_
  split
  · exact .pure hv
  · exact .pure hv
  · exact .pure (Value.within_ofText _)
  · refine heap.bind fun h _ => ?_
    cases hvs : v.items? h with
    | some vs =>
      have hvs := hv.items? hvs
      exact .pure (Value.within_stream.2 fun w hw => hvs w (List.mem_reverse.1 hw))
    | none => exact .throw _

@[simp] theorem confined_join : Taking.Confined k (Value.Within k) join := by
  refine value.bind fun v hv => (optional fun v _ => Form.confined_text v).bind fun glue _ => ?_
  refine finish.bind fun _ _ => heap.bind fun h _ => .ite (fun _ => .pure (Value.within_ofText _)) ?_
  exact fun _ => .bind (.lift (confined_itemsOr _ hv)) fun _ _ => .pure (Value.within_ofText _)

/-- The first or the last character of a text. -/
theorem within_char (c? : Option Char) : ((c?.map fun c =>
    Value.ofText (String.singleton c)).getD (.undefined false)).Within k := by
  cases c? <;> simp

@[simp] theorem confined_first : Taking.Confined k (Value.Within k) first := by
  refine value.bind fun v hv => finish.bind fun _ _ => ?_
  split
  · exact .pure (within_char _)
  · refine heap.bind fun h _ => ?_
    cases hvs : v.parts? h with
    | none => exact .throw _
    | some vs =>
      have hvs := hv.parts? hvs
      cases vs with
      | nil => exact .pure (Value.within_undefined _)
      | cons w vs => exact .pure (hvs w List.mem_cons_self)

@[simp] theorem confined_last : Taking.Confined k (Value.Within k) last := by
  refine value.bind fun v hv => finish.bind fun _ _ => heap.bind fun h _ => ?_
  split
  · exact .pure (within_char _)
  · split
    next vs hvs =>
      split_ifs at hvs
      have hlast : ∀ w, vs.getLast? = some w → w.Within k := fun w hw =>
        hv.parts? hvs w (List.mem_of_getLast? hw)
      exact .pure (Value.within_getD hlast (Value.within_undefined _))
    · exact .throw _

/-- The item that comes before all others is one of the items. -/
theorem within_extreme {better : Ordering → Bool} (hvs : ∀ v ∈ vs, v.Within k) :
    (extreme h better vs).Within k := by
  cases vs with
  | nil => exact Value.within_undefined _
  | cons v r =>
    obtain ⟨hv, hr⟩ := List.forall_mem_cons.1 hvs
    rw [extreme]
    clear hvs
    induction r generalizing v with
    | nil => exact hv
    | cons w r ih =>
      obtain ⟨hw, hr⟩ := List.forall_mem_cons.1 hr
      rw [List.foldl_cons]
      split_ifs
      · exact ih w hw hr
      · exact ih v hv hr

@[simp] theorem confined_min : Taking.Confined k (Value.Within k) min :=
  value.bind fun _ hv => finish.bind fun _ _ => heap.bind fun _ _ =>
    .bind (.lift (confined_itemsOr _ hv)) fun _ hvs => .pure (within_extreme hvs)

@[simp] theorem confined_max : Taking.Confined k (Value.Within k) max :=
  value.bind fun _ hv => finish.bind fun _ _ => heap.bind fun _ _ =>
    .bind (.lift (confined_itemsOr _ hv)) fun _ hvs => .pure (within_extreme hvs)

theorem confined_keysOf (paths : List String) (hv : v.Within k) :
    Run.Confined k (fun _ => True) (keysOf paths v) := by
  have hkeys : Run.Confined k (fun keys => ∀ d ∈ keys, True) (keysOf paths v) := by
    refine .mapM fun path _ => Run.Confined.heap.bind fun h _ => ?_
    refine .tryCatch ?_ fun _ => .pure trivial
    exact (Run.Confined.follow hv path).bind fun _ _ => .pure trivial
  exact hkeys.imp fun _ _ => trivial

@[simp] theorem confined_sort : Taking.Confined k (Value.Within k) sort := by
  refine options.bind fun os hos => value.bind fun v hv => finish.bind fun _ _ => ?_
  refine heap.bind fun h _ => .bind (.lift (confined_itemsOr _ hv)) fun vs hvs => ?_
  refine (option hos fun v _ => Form.confined_bool v).bind fun strict _ => ?_
  refine (option hos fun v _ => Form.confined_string v).bind fun path _ => ?_
  extract_lets shown
  have hshown : ∀ sorted : List Value, (∀ w ∈ sorted, w.Within k) →
      Taking.Confined k (Value.Within k) (shown sorted) := by
    intro sorted hsorted
    refine (option hos fun v _ => Form.confined_bool v).bind fun reversed _ => ?_
    refine onlyFrom.bind fun _ _ => .pure (Value.within_list.2 fun w hw => ?_)
    exact hsorted w (mem_reversedIf.1 hw)
  cases path with
  | none => exact .bind (.pure fun w hw => hvs w (mem_sortBy.1 hw)) hshown
  | some path =>
    refine .bind (Q := fun ps => ∀ p ∈ ps, p.2.Within k) (.mapM fun w hw => ?_) ?_
    · exact .bind (.lift (confined_keysOf _ (hvs w hw))) fun _ _ => .pure (hvs w hw)
    · refine fun keyed hkeyed => .bind (.pure ?_) hshown
      exact List.forall_mem_map.2 fun p hp => hkeyed p (mem_sortBy.1 hp)

@[simp] theorem confined_sum : Taking.Confined k (Value.Within k) sum := by
  refine value.bind fun v hv => finish.bind fun _ _ => heap.bind fun h _ => ?_
  refine .bind (.lift (Run.Confined.iterated hv)) fun vs hvs => .foldlM (Value.within_int _) ?_
  intro total htotal w hw
  split
  · exact .throw _
  · refine .ite (fun _ => .lift (.ofExcept fun u hu => ?_)) fun _ => .throw _
    exact htotal.add (hvs w hw) hu

@[simp] theorem confined_list : Taking.Confined k (Value.Within k) list :=
  value.bind fun _ hv => finish.bind fun _ _ => .bind (.lift (confined_itemsOr _ hv)) fun _ hvs =>
    .pure (Value.within_list.2 hvs)

/-! ### Groups of items -/

theorem mem_of_mem_groupsOf {size n : Nat} {g : List Value} (hg : g ∈ groupsOf size n vs)
    (hw : w ∈ g) : w ∈ vs := by
  induction n generalizing vs with
  | zero => cases hg
  | succ n ih =>
    cases vs with
    | nil => cases hg
    | cons v r =>
      rcases List.mem_cons.1 hg with rfl | hg
      · exact List.mem_of_mem_take hw
      · exact List.mem_of_mem_drop (ih hg)

@[simp] theorem confined_batch : Taking.Confined k (Value.Within k) batch := by
  refine value.bind fun v hv => (asked fun v _ => Form.confined_count v).bind fun size _ => ?_
  refine (optional fun v hv => .pure hv).bind fun filler hfiller => finish.bind fun _ _ => ?_
  refine .ite (fun _ => .throw_bind _ _) fun _ => ?_
  refine .bind (.lift (Run.Confined.iterated hv)) fun vs hvs => .pure ?_
  refine Value.within_list.2 (List.forall_mem_map.2 fun g hg => Value.within_list.2 fun w hw => ?_)
  have hgroup : ∀ w ∈ g, w.Within k := fun w hw => hvs w (mem_of_mem_groupsOf hg hw)
  cases filler with
  | none => exact hgroup w hw
  | some f =>
    rcases List.mem_append.1 hw with hw | hw
    · exact hgroup w hw
    · rw [List.eq_of_mem_replicate hw]
      exact hfiller f rfl

theorem within_partsFrom {size extra : Nat} {filler : Option Value}
    (hfiller : ∀ f, filler = some f → f.Within k) (n i : Nat) (hvs : ∀ v ∈ vs, v.Within k) :
    ∀ g ∈ partsFrom size extra filler n i vs, ∀ w ∈ g, w.Within k := by
  induction n generalizing i vs with
  | zero => exact nofun
  | succ n ih =>
    refine List.forall_mem_cons.2 ⟨fun w hw => ?_,
      ih (i + 1) fun v hv => hvs v (List.mem_of_mem_drop hv)⟩
    have hown : ∀ m, ∀ w ∈ vs.take m, w.Within k := fun m w hw => hvs w (List.mem_of_mem_take hw)
    cases filler with
    | none => exact hown _ w hw
    | some f =>
      dsimp only at hw
      split_ifs at hw
      · exact hown _ w hw
      · rcases List.mem_append.1 hw with hw | hw
        · exact hown _ w hw
        · exact List.mem_singleton.1 hw ▸ hfiller f rfl

@[simp] theorem confined_slice : Taking.Confined k (Value.Within k) slice := by
  refine value.bind fun v hv => (asked fun v _ => Form.confined_count v).bind fun count _ => ?_
  refine (optional fun v hv => .pure hv).bind fun filler hfiller => finish.bind fun _ _ => ?_
  refine .ite (fun _ => .throw_bind _ _) fun _ => ?_
  refine .bind (.lift (Run.Confined.iterated hv)) fun vs hvs => .pure ?_
  refine Value.within_list.2 (List.forall_mem_map.2 fun g hg => Value.within_list.2 ?_)
  exact within_partsFrom hfiller _ _ hvs g hg

theorem within_groupKeyed {strict : Bool} {ps : List (Value × Value)} (hps : PairsWithin k ps) :
    ∀ g ∈ groupKeyed strict h ps, g.1.Within k ∧ ∀ w ∈ g.2, w.Within k := by
  induction ps with
  | nil => exact nofun
  | cons p r ih =>
    obtain ⟨key, v⟩ := p
    obtain ⟨⟨hkey, hv⟩, hr⟩ := List.forall_mem_cons.1 hps
    have hgroups := ih hr
    have hone : ∀ g ∈ [(key, [v])], g.1.Within k ∧ ∀ w ∈ g.2, w.Within k := by
      simpa using ⟨hkey, hv⟩
    rw [groupKeyed]
    split
    · exact hone
    next l ws gs heq =>
      rw [heq] at hgroups
      obtain ⟨hfirst, hgs⟩ := List.forall_mem_cons.1 hgroups
      split
      · split_ifs
        · exact List.forall_mem_cons.2 ⟨⟨hfirst.1, List.forall_mem_cons.2 ⟨hv, hfirst.2⟩⟩, hgs⟩
        · exact List.forall_mem_cons.2 ⟨hone _ (by simp), hgroups⟩
      · exact List.forall_mem_cons.2 ⟨hone _ (by simp), hgroups⟩

@[simp] theorem confined_groupby : Taking.Confined k (Value.Within k) groupby := by
  refine options.bind fun os hos => value.bind fun v hv => ?_
  refine (optional fun v _ => Form.confined_string v).bind fun path _ => finish.bind fun _ _ => ?_
  refine heap.bind fun h _ => (option hos fun v hv => .pure hv).bind fun other hother => ?_
  refine (option hos fun v _ => Form.confined_bool v).bind fun strict _ => ?_
  have hother : (other.getD (.undefined false)).Within k :=
    Value.within_getD hother (Value.within_undefined _)
  extract_lets strict grouped
  have hgrouped : ∀ path, Taking.Confined k (Value.Within k) (grouped path) := by
    intro path
    unfold grouped
    cases hvs : v.items? h with
    | none => exact .throw_bind _ _
    | some vs =>
      refine .bind (Q := fun items => ∀ w ∈ items, w.Within k) (.pure (hv.items? hvs)) ?_
      intro items hitems
      refine .bind (Q := PairsWithin k) (.mapM fun w hw => ?_) fun keyed hkeyed => ?_
      · refine .bind (.lift (Run.Confined.followOr (hitems w hw) path hother)) fun _ hkey => ?_
        exact .pure ⟨hkey, hitems w hw⟩
      · refine onlyFrom.bind fun _ _ => .pure (Value.within_list.2 ?_)
        refine List.forall_mem_map.2 fun g hg => Value.within_group.2 ?_
        exact within_groupKeyed (fun p hp => hkeyed p (mem_sortBy.1 hp)) g hg
  cases path with
  | some path => exact .bind (Q := fun _ => True) (.pure trivial) fun path _ => hgrouped path
  | none =>
    cases os.lookup "attribute" with
    | some w => exact .bind (.lift (Form.confined_string w)) fun path _ => hgrouped path
    | none => exact .throw_bind _ _

theorem mem_of_mem_distinct {seen : List Datum} {ps : List (Datum × Value)}
    (hw : w ∈ distinct seen ps) : ∃ p ∈ ps, p.2 = w := by
  induction ps generalizing seen with
  | nil => cases hw
  | cons p r ih =>
    have hrest : ∀ seen, w ∈ distinct seen r → ∃ q ∈ p :: r, q.2 = w := fun seen hw => by
      obtain ⟨q, hq, rfl⟩ := ih hw
      exact ⟨q, List.mem_cons_of_mem p hq, rfl⟩
    unfold distinct at hw
    split_ifs at hw
    · exact hrest _ hw
    · rcases List.mem_cons.1 hw with rfl | hw
      · exact ⟨p, List.mem_cons_self, rfl⟩
      · exact hrest _ hw

@[simp] theorem confined_unique : Taking.Confined k (Value.Within k) unique := by
  refine options.bind fun os hos => value.bind fun v hv => finish.bind fun _ _ => ?_
  refine heap.bind fun h _ => (option hos fun v _ => Form.confined_string v).bind fun path _ => ?_
  refine (option hos fun v _ => Form.confined_bool v).bind fun strict _ => onlyFrom.bind fun _ _ => ?_
  refine .bind (.lift (Run.Confined.iterated hv)) fun vs hvs => ?_
  refine .bind (Q := fun ps => ∀ p ∈ ps, p.2.Within k) (.mapM fun w hw => ?_) fun ps hps => .pure ?_
  · cases path with
    | none => exact .pure (hvs w hw)
    | some path =>
      refine .bind (.lift (Run.Confined.followOr (hvs w hw) path (Value.within_undefined _))) ?_
      exact fun _ _ => .pure (hvs w hw)
  · refine Value.within_list.2 fun w hw => ?_
    obtain ⟨p, hp, rfl⟩ := mem_of_mem_distinct hw
    exact hps p hp

@[simp] theorem confined_chain : Taking.Confined k (Value.Within k) chain := by
  refine rest.bind fun vs hvs => heap.bind fun h hh => .ite (fun _ => .throw_bind _ _) fun _ => ?_
  refine .ite (fun _ => .pure ?_) fun _ => ?_
  · refine Value.within_map.2 (Member.within_putAll fun p hp => ?_)
    obtain ⟨v, hv, hp⟩ := List.mem_flatMap.1 hp
    cases hps : v.pairs? h with
    | none => rw [hps] at hp; cases hp
    | some ps =>
      rw [hps] at hp
      exact (hvs v hv).pairs? hh hps p hp
  · have hrows : Run.Confined k (fun rows => ∀ row ∈ rows, ∀ w ∈ row, w.Within k)
        (vs.mapM Run.iterated) :=
      .mapM fun v hv => Run.Confined.iterated (hvs v hv)
    refine .bind (.lift hrows) fun rows hrows => .pure (Value.within_stream.2 fun w hw => ?_)
    obtain ⟨row, hrow, hw⟩ := List.mem_flatten.1 hw
    exact hrows row hrow w hw

theorem within_transpose {rows : List (List Value)} (hrows : ∀ row ∈ rows, ∀ w ∈ row, w.Within k)
    (n : Nat) : ∀ column ∈ transpose rows n, ∀ w ∈ column, w.Within k := by
  induction n generalizing rows with
  | zero => exact nofun
  | succ n ih =>
    rw [transpose]
    split_ifs
    · exact nofun
    · refine List.forall_mem_cons.2 ⟨fun w hw => ?_,
        ih (List.forall_mem_map.2 fun row hrow w hw => ?_)⟩
      · obtain ⟨row, hrow, hw⟩ := List.mem_filterMap.1 hw
        exact hrows row hrow w (List.mem_of_head? hw)
      · exact hrows row hrow w (List.mem_of_mem_tail hw)

@[simp] theorem confined_zip : Taking.Confined k (Value.Within k) zip := by
  refine rest.bind fun vs hvs => .ite (fun _ => .throw_bind _ _) fun _ => ?_
  have hrows : Run.Confined k (fun rows => ∀ row ∈ rows, ∀ w ∈ row, w.Within k)
      (vs.mapM Run.iterated) :=
    .mapM fun v hv => Run.Confined.iterated (hvs v hv)
  refine .bind (.lift hrows) fun rows hrows => .pure (Value.within_stream.2 ?_)
  exact List.forall_mem_map.2 fun column hcolumn =>
    Value.within_list.2 (within_transpose hrows _ column hcolumn)

/-! ### By name -/

@[simp] theorem confined_escape : Taking.Confined k (Value.Within k) escape := by
  refine value.bind fun v hv => finish.bind fun _ _ => .ite (fun _ => .pure hv) fun _ => ?_
  refine .bind (.lift Run.Confined.get) fun s _ => ?_
  exact .bind (.lift (.ofExcept fun _ _ => trivial)) fun _ _ => .pure (Value.within_text _ _)

@[simp] theorem confined_default : Taking.Confined k (Value.Within k) default := by
  refine options.bind fun os hos => value.bind fun v hv => next?.bind fun other hother => ?_
  refine (optional fun v _ => Form.confined_bool v).bind fun lax _ => finish.bind fun _ _ => ?_
  refine (option hos fun v _ => Form.confined_bool v).bind fun boolean _ => ?_
  refine onlyFrom.bind fun _ _ => heap.bind fun h _ => .ite (fun _ => .pure ?_) fun _ => .pure hv
  exact Value.within_getD hother (Value.within_ofText _)

@[simp] theorem confined_attr : Taking.Confined k (Value.Within k) attr :=
  value.bind fun _ hv => value.bind fun _ _ => finish.bind fun _ _ =>
    .lift (Run.Confined.itemOf hv _)

@[simp] theorem confined_string : Taking.Confined k (Value.Within k) Filter.string := by
  refine value.bind fun v hv => finish.bind fun _ _ => ?_
  split
  · exact .pure hv
  · exact heap.bind fun _ _ => .pure (Value.within_ofText _)

@[simp] theorem confined_bool : Taking.Confined k (Value.Within k) bool :=
  value.bind fun _ _ => finish.bind fun _ _ => heap.bind fun _ _ => .pure (Value.within_bool _)

@[simp] theorem confined_pprint : Taking.Confined k (Value.Within k) pprint :=
  value.bind fun _ _ => finish.bind fun _ _ => heap.bind fun _ _ => .pure (Value.within_ofText _)

theorem confined_indentOf (v : Value) : Run.Confined k (fun _ => True) (indentOf v) := by
  unfold indentOf
  split
  · exact .pure trivial
  · exact .pure trivial
  · exact (Form.confined_count v).bind fun _ _ => .pure trivial

@[simp] theorem confined_tojson : Taking.Confined k (Value.Within k) tojson := by
  refine options.bind fun os hos => value.bind fun v _ => ?_
  refine (optional fun v hv => .pure hv).bind fun width _ => finish.bind fun _ _ => ?_
  extract_lets shown indented
  have hshown : ∀ width, Taking.Confined k (Value.Within k) (shown width) := fun width =>
    onlyFrom.bind fun _ _ => heap.bind fun _ _ => .bind (.lift (.ofExcept fun _ _ => trivial))
      fun _ _ => .pure (Value.within_text _ _)
  have hindented : ∀ width, Taking.Confined k (Value.Within k) (indented width) := by
    intro width
    cases width with
    | some w => exact .bind (.lift (confined_indentOf w)) fun width _ => hshown width
    | none => exact .bind (Q := fun _ => True) (.pure trivial) fun width _ => hshown width
  cases width with
  | some w => exact .bind (Q := fun _ => True) (.pure trivial) fun width _ => hindented width
  | none => exact (option hos fun v hv => .pure hv).bind fun width _ => hindented width

@[simp] theorem confined_urlencode : Taking.Confined k (Value.Within k) urlencode := by
  refine value.bind fun v _ => finish.bind fun _ _ => heap.bind fun h _ => ?_
  split
  · exact .pure (Value.within_ofText _)
  · exact .ite (fun _ => .pure (Value.within_ofText _)) fun _ => .pure (Value.within_ofText _)

/-- What is found by a name is confined. -/
structure Finder.Confined (k : Nat) (f : Finder) : Prop where
  filter : ∀ name g, f.filter? name = some g → ∀ vs : List Value, (∀ v ∈ vs, v.Within k) →
    Run.Confined k (Value.Within k) (g vs)
  test : ∀ name g, f.test? name = some g → ∀ vs : List Value, (∀ v ∈ vs, v.Within k) →
    Run.Confined k (fun _ => True) (g vs)

variable {f : Finder} {keep : Bool}

theorem confined_selectBy (hf : f.Confined k) (path test : Option String) (hv : v.Within k)
    (hvs : ∀ w ∈ vs, w.Within k) :
    Run.Confined k (Value.Within k) (selectBy f keep path v test vs) := by
  unfold selectBy
  extract_lets answer kept
  have hkept : ∀ test : Option (List Value → Run Bool),
      (∀ g, test = some g → ∀ vs : List Value, (∀ v ∈ vs, v.Within k) →
        Run.Confined k (fun _ => True) (g vs)) → Run.Confined k (Value.Within k) (kept test) := by
    intro test htest
    refine Run.Confined.heap.bind fun h _ => (Run.Confined.iterated hv).bind fun ws hws => ?_
    refine .bind (.filterM fun w hw => ?_) fun kept hkept => ?_
    · extract_lets judged
      have hjudged : ∀ tested : Value, tested.Within k →
          Run.Confined k (fun _ => True) (judged tested) := by
        intro tested htested
        cases test with
        | none => exact .bind (Q := fun _ => True) (.pure trivial) fun _ _ => .pure trivial
        | some g =>
          refine (htest g rfl _ ?_).bind fun _ _ => .pure trivial
          exact List.forall_mem_cons.2 ⟨htested, hvs⟩
      cases path with
      | none => exact .bind (.pure (hws w hw)) hjudged
      | some path => exact (Run.Confined.follow (hws w hw) path).bind hjudged
    · exact .pure (Value.within_list.2 fun w hw => hws w (hkept w hw))
  cases test with
  | none => exact .bind (.pure fun g hg => by cases hg) hkept
  | some name =>
    dsimp only
    cases hg : f.test? name with
    | none => exact .throw_bind _
    | some g => exact .bind (.pure fun g' hg' => hf.test name g' (hg.trans hg')) hkept

@[simp] theorem confined_select (hf : f.Confined k) :
    Taking.Confined k (Value.Within k) (select f keep) := by
  refine value.bind fun v hv => (optional fun v _ => Form.confined_text v).bind fun test _ => ?_
  exact rest.bind fun vs hvs => .lift (confined_selectBy hf none test hv hvs)

@[simp] theorem confined_selectattr (hf : f.Confined k) :
    Taking.Confined k (Value.Within k) (selectattr f keep) := by
  refine value.bind fun v hv => text.bind fun path _ => ?_
  refine (optional fun v _ => Form.confined_text v).bind fun test _ => ?_
  exact rest.bind fun vs hvs => .lift (confined_selectBy hf (some path) test hv hvs)

theorem confined_mapAttribute {os : Options} {key : Value} (hos : EntriesWithin k os)
    (hv : v.Within k) : Run.Confined k (Value.Within k) (mapAttribute os key v) := by
  unfold mapAttribute
  extract_lets other one
  refine (Run.Confined.iterated hv).bind fun vs hvs => ?_
  have hone : ∀ w, w.Within k → Run.Confined k (Value.Within k) (one w) := by
    intro w hw
    cases key with
    | text path safe => exact Run.Confined.follow hw path
    | _ => exact Run.Confined.itemOf hw _
  refine .bind (.mapM (R := Value.Within k) fun w hw => ?_) fun found hfound => ?_
  · refine .ite (fun _ => hone w (hvs w hw)) fun _ => ?_
    refine .bind (.tryCatch (hone w (hvs w hw)) fun _ => .pure (Value.within_undefined _)) ?_
    intro u hu
    refine .pure ?_
    split_ifs
    · exact hos.getD_lookup "default"
    · exact hu
  · exact (Options.confined_onlyFrom os _).bind fun _ _ => .pure (Value.within_list.2 hfound)

@[simp] theorem confined_map (hf : f.Confined k) : Taking.Confined k (Value.Within k) (map f) := by
  refine value.bind fun v hv => rest.bind fun all hall => ?_
  refine .bind (.lift (Taking.Confined.options all hall)) fun p hp => ?_
  refine (option hp.1 fun v hv => .pure hv).bind fun key? _ => ?_
  cases key? with
  | some key =>
    exact .ite (fun _ => .lift (confined_mapAttribute hp.1 hv)) fun _ => .throw _
  | none =>
    obtain ⟨os, args⟩ := p
    cases args with
    | nil => exact .throw _
    | cons name args =>
      have hargs := (List.forall_mem_cons.1 hp.2).2
      cases name with
      | text name safe =>
        cases hg : f.filter? name with
        | none => simpa only [hg] using .throw _
        | some g =>
          simp only [hg]
          refine .bind (.lift (Run.Confined.iterated hv)) fun vs hvs => ?_
          refine .bind (.mapM fun w hw => .lift ?_) fun ws hws => .pure (Value.within_list.2 hws)
          exact hf.filter name g hg _ (List.forall_mem_cons.2 ⟨hvs w hw, hargs⟩)
      | _ => exact .throw _

/-- **Every filter** keeps within the height if those do that it applies. -/
theorem confined_named? (hf : f.Confined k) {name : String} {t : Taking Value}
    (ht : named? f name = some t) : Taking.Confined k (Value.Within k) t := by
  unfold named? at ht
  split at ht
  case h_49 => cases ht
  all_goals
    obtain rfl := Option.some.inj ht
    simp [hf]

theorem confined_test? {name : String} {g : List Value → Run Bool} (hg : test? name = some g)
    (hvs : ∀ v ∈ vs, v.Within k) : Run.Confined k (fun _ => True) (g vs) := by
  obtain ⟨t, ht, rfl⟩ := Option.map_eq_some_iff.1 hg
  exact (Test.confined_named? ht).run' hvs

/-- By induction on the depth to which filters apply others. -/
theorem confined_within (depth : Nat) : Finder.Confined k ⟨within depth, test?⟩ := by
  induction depth with
  | zero => exact ⟨nofun, fun _ _ hg _ => confined_test? hg⟩
  | succ depth ih =>
    refine ⟨fun name g hg vs hvs => ?_, fun _ _ hg _ => confined_test? hg⟩
    obtain ⟨t, ht, rfl⟩ := Option.map_eq_some_iff.1 hg
    exact (confined_named? ih ht).run' hvs

/-- **Applying a filter** keeps within the height. -/
theorem confined_apply (name : String) (hvs : ∀ v ∈ vs, v.Within k) :
    Run.Confined k (Value.Within k) (apply name vs) := by
  rw [apply]
  cases hg : within (vs.length + 1) name with
  | some g => exact (confined_within (vs.length + 1)).filter name g hg vs hvs
  | none => exact .throw _

theorem confined_applyTest (name : String) (hvs : ∀ v ∈ vs, v.Within k) :
    Run.Confined k (fun _ => True) (applyTest name vs) := by
  rw [applyTest]
  cases hg : test? name with
  | some g => exact confined_test? hg hvs
  | none => exact .throw _

end Scaffold.Template.Filter
