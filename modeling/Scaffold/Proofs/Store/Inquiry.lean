import Scaffold.Proofs.Store.Names
import Scaffold.Proofs.Work.Reads
import Scaffold.Rendering

/-!
# How a repository answers

Stores only read (`Store.reads_source`, `Store.reads_modes`). A repository answers a question for a
template from its shelf, or else from what the store holds (`Repository.answer`). While an inquiry is
conducted the answer for a name never changes, so that its result is the one with these answers fixed,
and afterwards the shelf has what was answered (`conduct_apply`). Only an inquiry that asks what is
kept can come to another result where other templates are kept (`Inquiry.steady_of_unasked`).
-/

namespace Scaffold

open Work (Reads)

variable {α β : Type}

namespace DirectoryStore

theorem reads_open (root : Path) : Reads (DirectoryStore.open root) :=
  Reads.disk.bind fun _ =>
    Reads.ite ((Reads.notice _ _).bind fun _ => Reads.pure _) (Reads.fail _)

/-- The store below a root. -/
def below (root : Path) : DirectoryStore := ⟨root.joinName "templates", root.joinName "macros"⟩

theorem eq_of_open {root : Path} {s : Site} {st : DirectoryStore}
    (h : (DirectoryStore.open root s).1 = .ok st) : st = below root := by
  have hdisk : Work.disk s = (.ok s.disk, s) := rfl
  rw [DirectoryStore.open, Work.bind_of_ok hdisk] at h
  split at h
  · exact (Except.ok.inj h).symm
  · cases h

theorem reads_listing (p : Path) : Reads (listing p) := by
  refine Reads.disk.bind fun d => ?_
  cases d.list p with
  | error f => exact Reads.fail _
  | ok es => exact Reads.pure es

theorem reads_modes (s : DirectoryStore) (tag : String) : Reads (s.modes tag) := by
  have hgroup : Reads (s.group? tag) := Reads.disk.bind fun _ => Reads.pure _
  refine hgroup.bind fun dir? => ?_
  cases dir? with
  | none => exact Reads.fail _
  | some dir => exact (reads_listing dir).bind fun _ => Reads.pure _

theorem reads_firstFile (ps : List (Option Path)) : Reads (firstFile ps) := by
  induction ps with
  | nil => exact Reads.pure none
  | cons p? ps ih =>
    cases p? with
    | none => exact ih
    | some p =>
      refine Reads.disk.bind fun d => ?_
      refine Reads.ite ?_ ih
      exact (Reads.notice _ _).bind fun _ => (Reads.readText p).bind fun _ => Reads.pure _

end DirectoryStore

namespace Store

theorem reads_source (s : Store) (name : String) : Reads (s.source name) := by
  cases s with
  | memory s => exact Reads.pure _
  | directory s => exact DirectoryStore.reads_firstFile _

theorem reads_modes (s : Store) (tag : String) : Reads (s.modes tag) := by
  cases s with
  | memory s =>
    simp only [modes]
    cases s.modes? tag with
    | none => exact Reads.fail _
    | some ms => exact Reads.pure ms
  | directory s => exact s.reads_modes tag

/-- What a store holds under a name, where the disk is `d`. -/
def held (s : Store) (d : Disk) (name : String) : Except Failure (Option String) :=
  (s.source name (.on d)).1

/-- The modes that a store lists for a tag, where the disk is `d`. -/
def listed (s : Store) (d : Disk) (tag : String) : Except Failure (List String) :=
  (s.modes tag (.on d)).1

end Store

/-! ### Inquiries with fixed answers -/

/-- The names of the templates that are kept, in order, where any can be kept. -/
abbrev Kept := Option (List String)

/-- What is kept after a question for a template. -/
def Kept.having (A : String → Except RenderFault Template) (name : String) (K : Kept) : Kept :=
  if (A name).isOk then K.map fun names => distinctSorted (name :: names) else K

namespace Inquiry

variable (A : String → Except RenderFault Template) (M : String → Except Failure (List String))

/-- The result of an inquiry whose questions for templates and modes have fixed answers, where `K` is
kept at first. -/
def eval : Inquiry α → Kept → α
  | done a, _ => a
  | remark _ rest, K => rest.eval K
  | template name rest, K => (rest (A name)).eval (K.having A name)
  | modes tag rest, K => (rest (M tag)).eval K
  | kept rest, K => (rest (K.getD [])).eval K

/-- What is kept after an inquiry. -/
def keptAfter : Inquiry α → Kept → Kept
  | done _, K => K
  | remark _ rest, K => rest.keptAfter K
  | template name rest, K => (rest (A name)).keptAfter (K.having A name)
  | modes tag rest, K => (rest (M tag)).keptAfter K
  | kept rest, K => (rest (K.getD [])).keptAfter K

/-- The names whose templates are asked for. -/
def asked : Inquiry α → Kept → List String
  | done _, _ => []
  | remark _ rest, K => rest.asked K
  | template name rest, K => name :: (rest (A name)).asked (K.having A name)
  | modes tag rest, K => (rest (M tag)).asked K
  | kept rest, K => (rest (K.getD [])).asked K

/-- **The inquiry never asks what is kept.** -/
def unasked : Inquiry α → Bool
  | done _ => true
  | remark _ rest => rest.unasked
  | template name rest => (rest (A name)).unasked
  | modes tag rest => (rest (M tag)).unasked
  | kept _ => false

variable {A M} {K : Kept}

@[simp] theorem eval_pure (a : α) : (pure a : Inquiry α).eval A M K = a := rfl

@[simp] theorem eval_bind (q : Inquiry α) (f : α → Inquiry β) :
    (q >>= f).eval A M K = (f (q.eval A M K)).eval A M (q.keptAfter A M K) := by
  change (q.bind f).eval A M K = _
  induction q generalizing K with
  | done a => rfl
  | remark text rest ih => exact ih
  | template name rest ih => exact ih (A name)
  | modes tag rest ih => exact ih (M tag)
  | kept rest ih => exact ih (K.getD [])

@[simp] theorem eval_templateOf (name : String) : (templateOf name).eval A M K = A name := rfl

@[simp] theorem eval_modesOf (tag : String) : (modesOf tag).eval A M K = M tag := rfl

@[simp] theorem keptAfter_noting (text : String) : (noting text).keptAfter A M K = K := rfl

@[simp] theorem keptAfter_templateOf (name : String) :
    (templateOf name).keptAfter A M K = K.having A name := rfl

@[simp] theorem keptAfter_modesOf (tag : String) : (modesOf tag).keptAfter A M K = K := rfl

/-- The inquiry comes to the same result, whatever is kept at first. -/
def Steady (A : String → Except RenderFault Template) (M : String → Except Failure (List String))
    (q : Inquiry α) : Prop := ∀ K K', q.eval A M K = q.eval A M K'

/-- **An inquiry that does not ask what is kept** comes to the same result, whatever is. -/
theorem steady_of_unasked {q : Inquiry α} (h : q.unasked A M = true) : q.Steady A M := by
  intro K K'
  induction q generalizing K K' with
  | done a => rfl
  | remark text rest ih => exact ih h K K'
  | template name rest ih => exact ih (A name) h _ _
  | modes tag rest ih => exact ih (M tag) h K K'
  | kept rest => cases h

end Inquiry

variable {A : String → Except RenderFault Template} {M : String → Except Failure (List String)}
  {K : Kept}

/-- The template has to be there, and faults in it are failures to render it. -/
theorem eval_renderNamed (child : Node → String → Inquiry (Except Failure String))
    (tag mode : String) (context : Template.Value) :
    (renderNamed child tag mode context).eval A M K = match A (templateName tag mode) with
      | .ok t => ((Template.renderTemplate child t context).eval A M
          (K.having A (templateName tag mode))).mapError (.render (templateName tag mode))
      | .error f => if f.kind = .templateNotFound then .error (.templateNotFound (templateName tag mode))
        else .error (.render (templateName tag mode) f) := by
  rw [renderNamed]
  simp only [Inquiry.eval_bind, Inquiry.eval_templateOf]
  cases A (templateName tag mode) with
  | ok t => simp
  | error f =>
    simp only
    split_ifs <;> rfl

/-- How a template for a node renders a child of the node. -/
def Node.childRendering (n c : Node) (mode : String) : Inquiry (Except Failure String) :=
  if c.height < n.height then c.rendering mode else pure (.error (.parse ""))

/-- The mode has to be listed for the tag of a node. -/
theorem Node.eval_rendering (n : Node) (mode : String) :
    (n.rendering mode).eval A M K = match M n.tag with
      | .error f => .error f
      | .ok available =>
        if available.contains mode then
          (renderNamed n.childRendering n.tag mode n.context).eval A M K
        else .error (.invalidMode n.tag mode available) := by
  rw [Node.rendering]
  simp only [Inquiry.eval_bind, Inquiry.eval_modesOf]
  cases M n.tag with
  | error f => rfl
  | ok available =>
    simp only
    split_ifs
    · rfl
    · rfl

/-! ### Answers of a repository -/

/-- The template that a shelf has under a name. -/
def Site.kept? (s : Site) (shelf : Nat) (name : String) : Option Template :=
  (s.shelves[shelf]?.getD []).lookup name

namespace Repository

variable {r : Repository} {s t u : Site} {names more : List String}

/-- The answer to a question for a template: what is kept, or else what the store's text is read
as. -/
def answer (r : Repository) (s : Site) (name : String) : Except RenderFault Template :=
  match s.kept? r.shelf name with
  | some t => .ok t
  | none => compiled name (r.store.held s.disk name)

theorem answer_of_kept {name : String} {t : Template} (h : s.kept? r.shelf name = some t) :
    r.answer s name = .ok t := by rw [answer, h]

theorem answer_of_missing {name : String} (h : s.kept? r.shelf name = none) :
    r.answer s name = compiled name (r.store.held s.disk name) := by rw [answer, h]

/-- **The repository has kept its answers for these names**, where they are templates. Nothing else
has changed. -/
structure Keeps (r : Repository) (names : List String) (s t : Site) : Prop where
  disk : t.disk = s.disk
  count : t.shelves.length = s.shelves.length
  other : ∀ shelf name, shelf ≠ r.shelf → t.kept? shelf name = s.kept? shelf name
  own : r.shelf < s.shelves.length → ∀ name, t.kept? r.shelf name =
    if name ∈ names then (r.answer s name).toOption else s.kept? r.shelf name

theorem Keeps.of_shelves (hd : t.disk = s.disk) (hs : t.shelves = s.shelves) : r.Keeps [] s t := by
  have hkept : ∀ shelf name, t.kept? shelf name = s.kept? shelf name := by
    intro shelf name
    rw [Site.kept?, hs, Site.kept?]
  exact ⟨hd, by rw [hs], fun shelf name _ => hkept shelf name, fun _ name => by simp [hkept]⟩

theorem kept?_of_le (h : s.shelves.length ≤ r.shelf) (name : String) :
    s.kept? r.shelf name = none := by
  rw [Site.kept?, List.getElem?_eq_none h]
  rfl

/-- **Keeping an answer does not change any answer.** -/
theorem Keeps.answer_eq (h : r.Keeps names s t) : r.answer t = r.answer s := by
  funext name
  by_cases hlt : r.shelf < s.shelves.length
  · have hown := h.own hlt name
    by_cases hn : name ∈ names
    · rw [if_pos hn] at hown
      cases ha : r.answer s name with
      | ok x =>
        rw [ha] at hown
        exact answer_of_kept hown
      | error f =>
        -- an answer that is no template was not kept before, and is not kept now
        rw [ha] at hown
        have hs : s.kept? r.shelf name = none := by
          cases hk : s.kept? r.shelf name with
          | none => rfl
          | some x => rw [answer_of_kept hk] at ha; cases ha
        rw [answer_of_missing hown, h.disk, ← answer_of_missing hs, ha]
    · rw [if_neg hn] at hown
      rw [answer, answer, hown, h.disk]
  · have hle := Nat.le_of_not_lt hlt
    rw [answer_of_missing (kept?_of_le hle name),
      answer_of_missing (kept?_of_le (h.count ▸ hle) name), h.disk]

theorem Keeps.trans (h : r.Keeps names s t) (h' : r.Keeps more t u) :
    r.Keeps (names ++ more) s u := by
  refine ⟨h'.disk.trans h.disk, h'.count.trans h.count, ?_, ?_⟩
  · intro shelf name hne
    rw [h'.other shelf name hne, h.other shelf name hne]
  · intro hlt name
    rw [h'.own (h.count ▸ hlt) name, h.answer_eq, h.own hlt name]
    by_cases hm : name ∈ more <;> by_cases hn : name ∈ names <;> simp [hm, hn]

/-- What becomes of the shelves when a template is put on one of them. -/
theorem kept?_putOnShelf (shelf shelf' : Nat) (name name' : String) (x : Template) :
    (Work.putOnShelf shelf name x s).2.kept? shelf' name' =
      if shelf' = shelf ∧ name' = name ∧ shelf < s.shelves.length then some x
      else s.kept? shelf' name' := by
  change ((s.shelves.modify shelf (Entries.insert name x))[shelf']?.getD []).lookup name' = _
  rw [List.getElem?_modify, Site.kept?]
  by_cases hs : shelf' = shelf
  · subst hs
    by_cases hlt : shelf' < s.shelves.length
    · by_cases hn : name' = name
      · subst hn
        simp [hlt, Entries.lookup_insert_self]
      · simp [hlt, hn, Entries.lookup_insert_of_ne]
    · simp [hlt]
  · simp [hs, Ne.symm hs]

/-- The names of the templates on the shelf, in order, if there is the shelf. -/
def shelfNames (r : Repository) (s : Site) : Kept :=
  s.shelves[r.shelf]?.map fun shelf => distinctSorted (Entries.keys shelf)

theorem keptNames_apply (r : Repository) (s : Site) :
    r.keptNames s = (.ok ((r.shelfNames s).getD []), s) := by
  have hnames : r.keptNames s =
      (.ok (distinctSorted (Entries.keys (s.shelves[r.shelf]?.getD []))), s) := rfl
  rw [hnames, shelfNames]
  cases s.shelves[r.shelf]? <;> rfl

theorem shelfNames_of_le (h : s.shelves.length ≤ r.shelf) : r.shelfNames s = none := by
  rw [shelfNames, List.getElem?_eq_none h]
  rfl

/-- The names on the shelf are those that a template is kept for. -/
theorem shelfNames_eq_some (hlt : r.shelf < s.shelves.length)
    (h : ∀ name, name ∈ names ↔ (s.kept? r.shelf name).isSome) :
    r.shelfNames s = some (distinctSorted names) := by
  rw [shelfNames, List.getElem?_eq_getElem hlt, Option.map_some, Option.some.injEq]
  refine distinctSorted_congr fun name => ?_
  rw [h, Site.kept?, List.getElem?_eq_getElem hlt, Option.getD_some, Entries.isSome_lookup]

theorem exists_shelfNames (hlt : r.shelf < s.shelves.length) : ∃ names,
    r.shelfNames s = some names ∧ ∀ name, name ∈ names ↔ (s.kept? r.shelf name).isSome := by
  refine ⟨_, by rw [shelfNames, List.getElem?_eq_getElem hlt, Option.map_some], fun name => ?_⟩
  rw [mem_distinctSorted, Site.kept?, List.getElem?_eq_getElem hlt, Option.getD_some,
    Entries.isSome_lookup]

theorem shelfNames_congr (hcount : t.shelves.length = s.shelves.length)
    (h : ∀ name, (t.kept? r.shelf name).isSome = (s.kept? r.shelf name).isSome) :
    r.shelfNames t = r.shelfNames s := by
  by_cases hlt : r.shelf < s.shelves.length
  · obtain ⟨ns, hns, hmem⟩ := exists_shelfNames hlt
    obtain ⟨more, hmore, hmem'⟩ := exists_shelfNames (hcount ▸ hlt)
    rw [shelfNames_eq_some hlt hmem, shelfNames_eq_some (hcount ▸ hlt) fun name => by rw [hmem, h]]
  · have hle := Nat.le_of_not_lt hlt
    rw [shelfNames_of_le hle, shelfNames_of_le (hcount ▸ hle)]

theorem Keeps.shelfNames_nil (h : r.Keeps [] s t) : r.shelfNames t = r.shelfNames s := by
  refine shelfNames_congr h.count fun name => ?_
  by_cases hlt : r.shelf < s.shelves.length
  · rw [h.own hlt, if_neg List.not_mem_nil]
  · have hle := Nat.le_of_not_lt hlt
    rw [kept?_of_le hle, kept?_of_le (h.count ▸ hle)]

/-- **The names on the shelf after an answer has been kept.** -/
theorem Keeps.shelfNames_singleton {name : String} (h : r.Keeps [name] s t) :
    r.shelfNames t = (r.shelfNames s).having (r.answer s) name := by
  by_cases hlt : r.shelf < s.shelves.length
  · have hown : ∀ n, (t.kept? r.shelf n).isSome =
        if n = name then (r.answer s name).isOk else (s.kept? r.shelf n).isSome := by
      intro n
      rw [h.own hlt]
      simp only [List.mem_singleton]
      split_ifs with hn
      · subst hn
        cases r.answer s n <;> rfl
      · rfl
    obtain ⟨ns, hns, hmem⟩ := exists_shelfNames hlt
    rw [Kept.having, hns]
    split_ifs with hok
    · rw [Option.map_some]
      refine shelfNames_eq_some (h.count ▸ hlt) fun n => ?_
      rw [List.mem_cons, hown, hmem]
      by_cases hn : n = name <;> simp [hn, hok]
    · rw [← hns]
      refine shelfNames_congr h.count fun n => ?_
      rw [hown]
      split_ifs with hn
      · -- what is kept for a name is the answer for it
        subst hn
        cases hk : s.kept? r.shelf n with
        | none => simpa using hok
        | some x => exact absurd (by rw [answer_of_kept hk]; rfl) hok
      · rfl
  · have hle := Nat.le_of_not_lt hlt
    rw [shelfNames_of_le hle, shelfNames_of_le (h.count ▸ hle), Kept.having, Option.map_none, ite_self]

/-- A question for a template, and what is kept of the answer. -/
theorem template_apply (r : Repository) (s : Site) (name : String) :
    ∃ t, r.template name s = (.ok (r.answer s name), t) ∧ r.Keeps [name] s t := by
  have hshelf : Work.shelved? r.shelf name s = (.ok (s.kept? r.shelf name), s) := rfl
  rw [template, Work.bind_of_ok hshelf]
  cases hk : s.kept? r.shelf name with
  | some x =>
    rw [answer_of_kept hk]
    refine ⟨s, rfl, rfl, rfl, fun _ _ _ => rfl, fun _ name' => ?_⟩
    by_cases hn : name' = name
    · subst hn
      simp [hk, answer_of_kept hk, Except.toOption]
    · simp [hn]
  | none =>
    -- looking the text up leaves only notices
    obtain ⟨ns, hns⟩ := (r.store.reads_source name).site s
    have hheld : Work.attempt (r.store.source name) s =
        (.ok (r.store.held s.disk name), { s with notices := ns }) :=
      Prod.ext (congrArg Except.ok ((r.store.reads_source name).result s)) hns
    simp only [Work.bind_of_ok hheld]
    rw [answer_of_missing hk]
    cases hc : compiled name (r.store.held s.disk name) with
    | error f =>
      refine ⟨{ s with notices := ns }, rfl, rfl, rfl, fun _ _ _ => rfl, fun _ name' => ?_⟩
      by_cases hn : name' = name
      · subst hn
        simp [answer_of_missing hk, hc, Except.toOption, ← hk, Site.kept?]
      · simp [hn, Site.kept?]
    | ok x =>
      refine ⟨(Work.putOnShelf r.shelf name x { s with notices := ns }).2, rfl, rfl,
        List.length_modify .., fun shelf name' hne => ?_, fun hlt name' => ?_⟩
      · rw [kept?_putOnShelf, if_neg fun h => hne h.1]
        rfl
      · rw [kept?_putOnShelf]
        by_cases hn : name' = name
        · subst hn
          simp [hlt, answer_of_missing hk, hc, Except.toOption]
        · simp [hn, Site.kept?]

end Repository

/-- The result of an inquiry with the answers of a site, and with what is kept there. -/
def Inquiry.resultAt (q : Inquiry α) (r : Repository) (s : Site) : α :=
  q.eval (r.answer s) (r.store.listed s.disk) (r.shelfNames s)

/-- **Conducting an inquiry** gives the result with the answers of the site fixed, and keeps the
templates that were asked for. -/
theorem Inquiry.conduct_apply (q : Inquiry α) (r : Repository) (s : Site) :
    ∃ t, q.conduct r s = (.ok (q.resultAt r s), t) ∧
      r.Keeps (q.asked (r.answer s) (r.store.listed s.disk) (r.shelfNames s)) s t := by
  induction q generalizing s with
  | done a => exact ⟨s, rfl, .of_shelves rfl rfl⟩
  | remark text rest ih =>
    have hnote : Work.debug text s =
      (.ok (), { s with notices := ⟨.debug, text⟩ :: s.notices }) := rfl
    have hkeep : r.Keeps [] s { s with notices := ⟨.debug, text⟩ :: s.notices } :=
      .of_shelves rfl rfl
    obtain ⟨u, hu, hkeep'⟩ := ih { s with notices := ⟨.debug, text⟩ :: s.notices }
    rw [resultAt, hkeep.answer_eq, hkeep.shelfNames_nil] at hu
    rw [hkeep.answer_eq, hkeep.shelfNames_nil] at hkeep'
    rw [conduct, Work.bind_of_ok hnote]
    exact ⟨u, hu, hkeep.trans hkeep'⟩
  | template name rest ih =>
    -- what is kept now is an answer of the site, so the rest is answered as from `s`
    obtain ⟨t, ht, hkeep⟩ := r.template_apply s name
    obtain ⟨u, hu, hkeep'⟩ := ih (r.answer s name) t
    rw [resultAt, hkeep.answer_eq, hkeep.disk, hkeep.shelfNames_singleton] at hu
    rw [hkeep.answer_eq, hkeep.disk, hkeep.shelfNames_singleton] at hkeep'
    rw [conduct, Work.bind_of_ok ht]
    exact ⟨u, hu, hkeep.trans hkeep'⟩
  | modes tag rest ih =>
    obtain ⟨ns, hns⟩ := (r.store.reads_modes tag).site s
    have hlisted : Work.attempt (r.modes tag) s =
        (.ok (r.store.listed s.disk tag), { s with notices := ns }) :=
      Prod.ext (congrArg Except.ok ((r.store.reads_modes tag).result s)) hns
    have hkeep : r.Keeps [] s { s with notices := ns } := .of_shelves rfl rfl
    obtain ⟨u, hu, hkeep'⟩ := ih (r.store.listed s.disk tag) { s with notices := ns }
    rw [resultAt, hkeep.answer_eq, hkeep.shelfNames_nil] at hu
    rw [hkeep.answer_eq, hkeep.shelfNames_nil] at hkeep'
    rw [conduct, Work.bind_of_ok hlisted]
    exact ⟨u, hu, hkeep.trans hkeep'⟩
  | kept rest ih =>
    obtain ⟨u, hu, hkeep⟩ := ih ((r.shelfNames s).getD []) s
    rw [conduct, Work.bind_of_ok (r.keptNames_apply s)]
    exact ⟨u, hu, hkeep⟩

/-- A node is rendered with the answers that the site gives, and the disk is kept. -/
theorem Node.render_apply (r : Repository) (n : Node) (mode : String) (s : Site) :
    (n.render r mode s).1 = (n.rendering mode).resultAt r s ∧
      (n.render r mode s).2.disk = s.disk := by
  obtain ⟨t, ht, hkeep⟩ := (n.rendering mode).conduct_apply r s
  rw [Node.render, Work.bind_of_ok ht]
  cases (n.rendering mode).resultAt r s with
  | error f => exact ⟨rfl, hkeep.disk⟩
  | ok text => exact ⟨rfl, hkeep.disk⟩

end Scaffold
