import Scaffold.Proofs.Disk.Below
import Scaffold.Proofs.Store.Chronicle
import Scaffold.Proofs.Store.Unlisted
import Scaffold.Proofs.Template.Reached

/-!
# Modes follow the live store

The modes of a tag are asked of the store, never of a shelf. `Store.HasGroup` and `Store.HasMode` say
what a store has on the disk as it is now, and these alone decide whether a node is rendered at all
(`Node.render_of_no_group`, `Node.render_of_no_mode`). If it is, its template is rendered as that of
any other context, as all nodes that it reaches are lower (`Node.render_of_mode`). So it is after
every history, whatever has been kept on shelves (`render_follows_store`).
-/

namespace Scaffold

open Template (Value Member renderTemplate renderTemplate_congr)

/-! ### The nodes below a node -/

theorem renderNamed_congr {k : Nat} {child child' : Node → String → Inquiry (Except Failure String)}
    (hchild : ∀ c mode, c.height < k → child c mode = child' c mode) (tag mode : String)
    {context : Value} (hcontext : context.Within k) :
    renderNamed child tag mode context = renderNamed child' tag mode context := by
  have hrender : ∀ t, renderTemplate child t context = renderTemplate child' t context :=
    fun t => renderTemplate_congr hchild t hcontext
  simp only [renderNamed, hrender]

namespace Node

/-- What the template for a node sees holds only nodes that are lower. -/
theorem within_context (n : Node) : n.context.Within n.height := by
  refine Value.within_map.2 (Member.within_ofEntries fun e he => ?_)
  rcases List.mem_append.1 he with he | he
  · obtain ⟨m, -, rfl⟩ := List.mem_map.1 he
    exact Value.within_ofJson m.2
  · rw [List.mem_singleton] at he
    subst he
    exact Value.within_list.2 (Value.within_children le_rfl)

/-- **Children are rendered as any node is**: no template for a node gets at one that is not lower. -/
theorem renderNamed_childRendering (n : Node) (mode : String) :
    renderNamed n.childRendering n.tag mode n.context =
      renderNamed rendering n.tag mode n.context :=
  renderNamed_congr (fun _ _ hc => if_pos hc) n.tag mode n.within_context

end Node

/-! ### The groups and the modes of a store -/

namespace MemoryStore

def HasGroup (m : MemoryStore) (tag : String) : Prop := tag ∈ Entries.keys m.groups

def HasMode (m : MemoryStore) (tag mode : String) : Prop := (m.template? tag mode).isSome

end MemoryStore

namespace DirectoryStore

variable {st : DirectoryStore} {s : Site} {d : Disk} {tag mode : String}
  {es : List (String × DiskEntry)}

/-- These are the entries of the directory of a tag. -/
def IsGroup (st : DirectoryStore) (d : Disk) (tag : String) (es : List (String × DiskEntry)) : Prop :=
  PlainName tag ∧ d.entry? (st.templates.joinName tag) = some (.directory es)

/-- There is a file for the mode in the directory of the tag. A name that is only the suffix is that
of no mode. -/
def HasMode (st : DirectoryStore) (d : Disk) (tag mode : String) : Prop :=
  mode ≠ "" ∧ ∃ es c, st.IsGroup d tag es ∧ (templateFile mode, .file c) ∈ es

theorem exists_isGroup_iff : (∃ es, st.IsGroup d tag es) ↔
    PlainName tag ∧ d.isDirectory (st.templates.joinName tag) = true := by
  simp only [IsGroup, exists_and_left, Disk.isDirectory]
  refine and_congr_right fun _ => ?_
  cases d.entry? (st.templates.joinName tag) with
  | none => simp
  | some e => cases e <;> simp

theorem modes_of_not_isGroup (h : ¬ ∃ es, st.IsGroup s.disk tag es) :
    (st.modes tag s).1 = .error (.templateNotFound tag) :=
  congrArg Prod.fst (modes_of_missing fun ht => Bool.eq_false_iff.2 fun hd =>
    h (exists_isGroup_iff.2 ⟨ht, hd⟩))

/-- The modes that the files in a directory are for. -/
def modesIn (es : List (String × DiskEntry)) : List String :=
  distinctSorted ((es.filter fun e => !e.2.isDirectory).filterMap fun e => modeOf? e.1)

theorem modes_of_isGroup (h : st.IsGroup s.disk tag es) : (st.modes tag s).1 = .ok (modesIn es) := by
  obtain ⟨ht, hdirectory⟩ := exists_isGroup_iff.1 ⟨es, h⟩
  rw [modes_of_list ht hdirectory (Disk.list_of_directory h.2), modesIn, List.filter_map,
    List.filterMap_map]
  rfl

theorem mem_modesIn (h : st.IsGroup d tag es) : mode ∈ modesIn es ↔ st.HasMode d tag mode := by
  rw [modesIn, mem_distinctSorted, List.mem_filterMap]
  constructor
  · rintro ⟨⟨name, e⟩, he, hmode⟩
    obtain ⟨rfl, hne⟩ := modeOf?_eq_some.1 hmode
    obtain ⟨he, hfile⟩ := List.mem_filter.1 he
    cases e with
    | directory es => cases hfile
    | file c => exact ⟨hne, es, c, h, he⟩
  · rintro ⟨hne, es', c, h', hc⟩
    -- there is one directory for the tag
    obtain rfl : es' = es := by
      have heq := h'.2.symm.trans h.2
      cases heq
      rfl
    exact ⟨(templateFile mode, .file c), List.mem_filter.2 ⟨hc, rfl⟩, modeOf?_eq_some.2 ⟨rfl, hne⟩⟩

end DirectoryStore

namespace Store

variable {st : Store} {d : Disk} {tag mode : String}

/-- **The store has a group for the tag**, where the disk is `d`. -/
def HasGroup (st : Store) (d : Disk) (tag : String) : Prop :=
  match st with
  | memory m => m.HasGroup tag
  | directory st => ∃ es, st.IsGroup d tag es

/-- **The group for the tag has the mode.** -/
def HasMode (st : Store) (d : Disk) (tag mode : String) : Prop :=
  match st with
  | memory m => m.HasMode tag mode
  | directory st => st.HasMode d tag mode

theorem HasMode.hasGroup (h : st.HasMode d tag mode) : st.HasGroup d tag := by
  cases st with
  | memory m =>
    refine Entries.isSome_lookup.1 ?_
    have hsome : (m.template? tag mode).isSome := h
    rw [MemoryStore.template?] at hsome
    cases hg : m.groups.lookup tag with
    | none => simp [hg] at hsome
    | some group => rfl
  | directory st =>
    obtain ⟨-, es, c, hes, -⟩ := h
    exact ⟨es, hes⟩

theorem listed_of_no_group (h : ¬ st.HasGroup d tag) :
    st.listed d tag = .error (.templateNotFound tag) := by
  cases st with
  | memory m =>
    have hnone : m.groups.lookup tag = none := by
      by_contra hsome
      exact h (Entries.isSome_lookup.1 (Option.isSome_iff_ne_none.2 hsome))
    simp only [listed, modes, MemoryStore.modes?, hnone, Option.map_none]
    rfl
  | directory st => exact DirectoryStore.modes_of_not_isGroup (s := .on d) h

/-- **A group lists its modes**, in order. -/
theorem exists_listed (h : st.HasGroup d tag) : ∃ ms, st.listed d tag = .ok ms ∧
    ms.Pairwise (· < ·) ∧ ∀ mode, mode ∈ ms ↔ st.HasMode d tag mode := by
  cases st with
  | memory m =>
    obtain ⟨group, hgroup⟩ := Option.isSome_iff_exists.1 (Entries.isSome_lookup.2 h)
    refine ⟨distinctSorted (Entries.keys group), ?_, pairwise_distinctSorted _, fun mode => ?_⟩
    · simp only [listed, modes, MemoryStore.modes?, hgroup, Option.map_some]
      rfl
    · rw [mem_distinctSorted, ← Entries.isSome_lookup, HasMode, MemoryStore.HasMode,
        MemoryStore.template?, hgroup, Option.bind_some]
  | directory st =>
    obtain ⟨es, hes⟩ := h
    exact ⟨_, DirectoryStore.modes_of_isGroup (s := .on d) hes, pairwise_distinctSorted _, fun mode =>
      DirectoryStore.mem_modesIn hes⟩

/-- What is listed is what there is. -/
theorem hasGroup_of_listed {ms : List String} (h : st.listed d tag = .ok ms) :
    st.HasGroup d tag ∧ ∀ mode, mode ∈ ms ↔ st.HasMode d tag mode := by
  have hgroup : st.HasGroup d tag := by
    by_contra hno
    rw [listed_of_no_group hno] at h
    cases h
  obtain ⟨ms', hms, -, hmem⟩ := exists_listed hgroup
  cases hms.symm.trans h
  exact ⟨hgroup, hmem⟩

end Store

/-! ### One rendering -/

/-- The template of a tag and a mode fails in other ways than for want of the tag or the mode. -/
theorem Repository.renderWith_ne (r : Repository) (tag mode : String) (context : Value) (s : Site) :
    (r.renderWith tag mode context s).1 ≠ .error (.templateNotFound tag) ∧
      ∀ t m ms, (r.renderWith tag mode context s).1 ≠ .error (.invalidMode t m ms) := by
  have hlonger : templateName tag mode ≠ tag := fun h => by
    have hlength := congrArg (fun name => name.toList.length) h
    rw [toList_templateName, List.length_append, List.length_cons] at hlength
    omega
  rw [renderWith_apply, Inquiry.resultAt, eval_renderNamed]
  cases r.answer s (templateName tag mode) with
  | ok t =>
    simp only
    cases (renderTemplate Node.rendering t context).eval (r.answer s) (r.store.listed s.disk) _ <;>
      simp [Except.mapError]
  | error f =>
    simp only
    split_ifs
    · simp [hlonger]
    · simp

namespace Node

variable {r : Repository} {n : Node} {mode : String} {s : Site}

/-- **Without a group**, no template is looked up. -/
theorem render_of_no_group (h : ¬ r.store.HasGroup s.disk n.tag) :
    (n.render r mode s).1 = .error (.templateNotFound n.tag) := by
  rw [(n.render_apply r mode s).1, Inquiry.resultAt, n.eval_rendering, Store.listed_of_no_group h]

/-- **Without the mode** either: the failure carries the modes that there are. -/
theorem render_of_no_mode (hgroup : r.store.HasGroup s.disk n.tag)
    (hmode : ¬ r.store.HasMode s.disk n.tag mode) :
    ∃ ms, (n.render r mode s).1 = .error (.invalidMode n.tag mode ms) ∧ ms.Pairwise (· < ·) ∧
      ∀ m, m ∈ ms ↔ r.store.HasMode s.disk n.tag m := by
  obtain ⟨ms, hms, hsorted, hmem⟩ := Store.exists_listed hgroup
  refine ⟨ms, ?_, hsorted, hmem⟩
  have hnot : ¬ ms.contains mode = true := by
    rw [List.contains_iff_mem, hmem]
    exact hmode
  rw [(n.render_apply r mode s).1, Inquiry.resultAt, n.eval_rendering, hms]
  exact if_neg hnot

/-- **In a mode that is there**, a node is rendered as its template with what the node shows. -/
theorem render_of_mode (h : r.store.HasMode s.disk n.tag mode) :
    (n.render r mode s).1 = (r.renderWith n.tag mode n.context s).1 := by
  obtain ⟨ms, hms, -, hmem⟩ := Store.exists_listed h.hasGroup
  have hcontains : ms.contains mode = true := List.contains_iff_mem.2 ((hmem mode).2 h)
  rw [(n.render_apply r mode s).1, Inquiry.resultAt, n.eval_rendering, hms, r.renderWith_apply,
    ← n.renderNamed_childRendering]
  exact if_pos hcontains

/-- Asking for the modes leaves only notices behind. -/
theorem exists_render_site (h : ¬ r.store.HasMode s.disk n.tag mode) :
    ∃ ns, (n.render r mode s).2 = { s with notices := ns } := by
  obtain ⟨ns, hns⟩ := (r.store.reads_modes n.tag).site s
  have hlisted : Work.attempt (r.modes n.tag) s =
      (.ok (r.store.listed s.disk n.tag), { s with notices := ns }) :=
    Prod.ext (congrArg Except.ok ((r.store.reads_modes n.tag).result s)) hns
  refine ⟨ns, ?_⟩
  have hconduct : ∃ x, (n.rendering mode).conduct r s =
      (.ok (.error x), { s with notices := ns }) := by
    rw [rendering]
    change ∃ x, (Work.attempt (r.modes n.tag) >>= _) s = _
    rw [Work.bind_of_ok hlisted]
    by_cases hgroup : r.store.HasGroup s.disk n.tag
    · obtain ⟨ms, hms, -, hmem⟩ := Store.exists_listed hgroup
      have hnot : ¬ ms.contains mode = true := by
        rw [List.contains_iff_mem, hmem]
        exact h
      rw [hms]
      change ∃ x, Inquiry.conduct r (if ms.contains mode = true then _ else _) _ = _
      rw [if_neg hnot]
      exact ⟨_, rfl⟩
    · rw [Store.listed_of_no_group hgroup]
      exact ⟨_, rfl⟩
  obtain ⟨x, hx⟩ := hconduct
  rw [render, Work.bind_of_ok hx]
  rfl

end Node

/-! ### Histories -/

theorem World.step_render {w : World} {i : Nat} {r : Repository} (h : w.handles[i]? = some r)
    (q : Request) : w.step (.render i q) =
      (some (q.perform r w.site).1, ⟨(q.perform r w.site).2, w.handles⟩) := by
  simp only [World.step, h]

/-- **Modes follow the live store, after every history.** A node fails to be rendered for want of a
group, or of the mode, exactly if the store of the repository lacks it now, whatever is on any shelf;
then nothing but notices has changed. Otherwise the node is rendered as the template for its tag and
the mode with its attributes and children. -/
theorem render_follows_store (d : Disk) (es : List Event) (i : Nat) (r : Repository) (n : Node)
    (mode : String) :
    let w := (World.start d).after es
    let now := diskAfter d es
    let x := w.step (.render i (.node n mode))
    w.handles[i]? = some r →
    (x.1 = some (.error (.templateNotFound n.tag)) ↔ ¬ r.store.HasGroup now n.tag) ∧
    ((∃ ms, x.1 = some (.error (.invalidMode n.tag mode ms))) ↔
      r.store.HasGroup now n.tag ∧ ¬ r.store.HasMode now n.tag mode) ∧
    (∀ tag m ms, x.1 = some (.error (.invalidMode tag m ms)) → tag = n.tag ∧ m = mode ∧
      ms.Pairwise (· < ·) ∧ ∀ m, m ∈ ms ↔ r.store.HasMode now n.tag m) ∧
    (¬ r.store.HasMode now n.tag mode → x.2.handles = w.handles ∧
      ∃ ns, x.2.site = { w.site with notices := ns }) ∧
    (r.store.HasMode now n.tag mode →
      x.1 = some (r.renderWith n.tag mode n.context w.site).1) := by
  intro w now x hr
  have hdisk : w.site.disk = now := World.after_disk d es
  have hx : x = (some (n.render r mode w.site).1, ⟨(n.render r mode w.site).2, w.handles⟩) :=
    World.step_render hr (.node n mode)
  clear_value x
  subst hx
  rw [← hdisk]
  simp only [Option.some.injEq]
  by_cases hgroup : r.store.HasGroup w.site.disk n.tag
  · by_cases hmode : r.store.HasMode w.site.disk n.tag mode
    · -- the template is rendered, and that does not fail in either of the two ways
      obtain ⟨hfound, hvalid⟩ := r.renderWith_ne n.tag mode n.context w.site
      rw [Node.render_of_mode hmode]
      refine ⟨iff_of_false hfound fun h => h hgroup, iff_of_false ?_ fun h => h.2 hmode,
        fun tag m ms h => absurd h (hvalid tag m ms), fun h => absurd hmode h, fun _ => rfl⟩
      rintro ⟨ms, h⟩
      exact hvalid n.tag mode ms h
    · obtain ⟨ms, hms, hsorted, hmem⟩ := Node.render_of_no_mode hgroup hmode
      rw [hms]
      refine ⟨iff_of_false nofun fun h => h hgroup, iff_of_true ⟨ms, rfl⟩ ⟨hgroup, hmode⟩, ?_,
        fun _ => ⟨trivial, Node.exists_render_site hmode⟩, fun h => absurd h hmode⟩
      rintro tag m ms' h
      cases h
      exact ⟨rfl, rfl, hsorted, hmem⟩
  · have hmode : ¬ r.store.HasMode w.site.disk n.tag mode := fun h => hgroup h.hasGroup
    rw [Node.render_of_no_group hgroup]
    exact ⟨iff_of_true rfl hgroup, iff_of_false nofun fun h => hgroup h.1, nofun,
      fun _ => ⟨trivial, Node.exists_render_site hmode⟩, fun h => absurd h hmode⟩

/-- A template is rendered by a repository, and then only these entries are left in the store. -/
def replaced (left : List (String × DiskEntry)) : List Event :=
  [.open ⟨"store"⟩, .render 0 (.template "a" "m" (.object [])),
    .change ⟨["work", "store", "templates"].foldr (fun n e => .directory [(n, e)])
      (.directory left), ["work"]⟩]

/-- The template is kept, but it counts only where its file is still there, whatever it holds now. -/
theorem render_follows_store_replaced :
    let n : Node := .mk "a" .empty [] (by decide) (by decide)
    let w left := (World.start (stocked "a")).after (replaced left)
    let x left := ((w left).step (.render 0 (.node n "m"))).1
    (∀ left, ((w left).site.kept? 0 "a/m.jinja").isSome = true) ∧
      x [] = some (.error (.templateNotFound "a")) ∧
      x [("a", .directory [])] = some (.error (.invalidMode "a" "m" [])) ∧
      (x [("a", .directory [("m.jinja", .file (.text "new"))])]).bind Except.toOption =
        some "text" := by
  intro n w x
  let st : Store := .directory (.below ⟨"store"⟩)
  let now left := diskAfter (stocked "a") (replaced left)
  have hagrees left := (Agrees.start (stocked "a")).after (Chronicle.Sound.start _) (replaced left)
  have hr : ∀ left, (w left).handles[0]? = some ⟨st, 0⟩ := fun left => by
    rw [(hagrees left).handles]
    rfl
  refine ⟨fun left => ?_, ?_, ?_, ?_⟩
  · rw [(hagrees left).kept]
    have hread : (((Chronicle.start (stocked "a")).after ((replaced []).take 2)).first? 0
      "a/m.jinja").isSome = true := by decide +kernel
    exact hread
  · have hlisted : st.listed (now []) "a" = .error (.templateNotFound "a") := rfl
    obtain ⟨hmissing, -⟩ := render_follows_store (stocked "a") (replaced []) 0 _ n "m" (hr _)
    refine hmissing.2 fun hgroup => ?_
    obtain ⟨ms, hms, -⟩ := Store.exists_listed hgroup
    cases hlisted.symm.trans hms
  · have hlisted : st.listed (now [("a", .directory [])]) "a" = .ok [] := rfl
    obtain ⟨hgroup, hmem⟩ := Store.hasGroup_of_listed hlisted
    obtain ⟨-, hinvalid, hcarried, -⟩ := render_follows_store (stocked "a")
      (replaced [("a", .directory [])]) 0 _ n "m" (hr _)
    obtain ⟨ms, hms⟩ := hinvalid.2 ⟨hgroup, fun hm => List.not_mem_nil ((hmem "m").2 hm)⟩
    obtain ⟨-, -, -, hcurrent⟩ := hcarried _ _ _ hms
    have hempty : ms = [] := List.eq_nil_iff_forall_not_mem.2 fun m hm =>
      List.not_mem_nil ((hmem m).2 ((hcurrent m).1 hm))
    exact hempty ▸ hms
  · have hlisted : st.listed (now [("a", .directory [("m.jinja", .file (.text "new"))])]) "a" =
      .ok ["m"] := rfl
    obtain ⟨-, hmem⟩ := Store.hasGroup_of_listed hlisted
    obtain ⟨-, -, -, -, hrendered⟩ := render_follows_store (stocked "a")
      (replaced [("a", .directory [("m.jinja", .file (.text "new"))])]) 0 _ n "m" (hr _)
    have hx := hrendered ((hmem "m").1 List.mem_cons_self)
    have htext : (((⟨st, 0⟩ : Repository).renderWith "a" "m" n.context
      (w [("a", .directory [("m.jinja", .file (.text "new"))])]).site).1).toOption = some "text" := by
      decide +kernel
    exact (congrArg (Option.bind · Except.toOption) hx).trans htext

end Scaffold
