import Mathlib
import Scaffold.Proofs.Store.Pools

/-!
# Repositories over time

A `World` is a site with repositories, which come into being, are copied and cleared, and render,
while the disk changes. A `Chronicle` keeps no templates: it notes which renderings took place, through
which cache and on which disk, and answers a question for a template with the first text that the
store held when the cache was asked for this name and that could be read. Both give the same answers
(`Agrees.step`). So a repository whose store has not changed since its cache came into being renders
like a new one, unless a template asks what is kept (`answers_of_caches`, `answers_of_inspecting`).
-/

namespace Scaffold

/-- Something to be rendered. -/
inductive Request
  | template (tag mode : String) (context : Json)
  | node (n : Node) (mode : String)

namespace Request

def inquiry : Request → Inquiry (Except Failure String)
  | template tag mode context =>
    renderNamed Node.rendering tag mode (Template.Value.ofJson context)
  | node n mode => n.rendering mode

/-- **No template calls `debug` without arguments**, where these are what the store holds on a disk:
the rendering never asks what is kept. -/
def unasked (q : Request) (st : Store) (d : Disk) : Bool :=
  q.inquiry.unasked (fun name => Repository.compiled name (st.held d name)) (st.listed d)

/-- Renders what is asked for with the templates of a repository. -/
def perform (r : Repository) : Request → Work String
  | template tag mode context => r.render tag mode context
  | node n mode => n.render r mode

theorem perform_eq (r : Repository) (q : Request) :
    q.perform r = (do Work.ofExcept (← q.inquiry.conduct r)) := by
  cases q <;> rfl

end Request

/-- What happens to the disk and to the repositories, which are numbered as they come into being. -/
inductive Event
  /-- Files are written or removed, which leaves this disk. -/
  | change (d : Disk)
  | new (st : Store)
  | «open» (root : Path)
  | clone (h : Nat)
  | clear (h : Nat)
  | render (h : Nat) (q : Request)

/-- The disk that an event leaves of a disk: only a change of files counts. -/
def Event.disk (d : Disk) : Event → Disk
  | .change e => e
  | _ => d

/-- **The disk as the last change of files has left it.** -/
def diskAfter (d : Disk) (es : List Event) : Disk := es.foldl Event.disk d

/-- A rendering or a failure, if an event has any. -/
abbrev Answer := Option (Except Failure String)

/-! ### Worlds -/

structure World where
  site : Site
  handles : List Repository

namespace World

/-- Nothing but a disk. -/
def start (d : Disk) : World := ⟨.on d, []⟩

/-- Another repository, unless its making fails. -/
def gain (w : World) (m : Work Repository) : Answer × World :=
  match m w.site with
  | (.ok r, s) => (none, ⟨s, w.handles ++ [r]⟩)
  | (.error f, s) => (some (.error f), ⟨s, w.handles⟩)

def step (w : World) : Event → Answer × World
  | .change d => (none, { w with site := { w.site with disk := d } })
  | .new st => w.gain (Repository.new st)
  | .open root => w.gain (Repository.open root)
  | .clone h =>
    match w.handles[h]? with
    | some r => (none, { w with handles := w.handles ++ [r] })
    | none => (none, w)
  | .clear h =>
    match w.handles[h]? with
    | some r =>
      match r.cleared w.site with
      | (.ok r, s) => (none, ⟨s, w.handles.set h r⟩)
      | (.error f, s) => (some (.error f), ⟨s, w.handles⟩)
    | none => (none, w)
  | .render h q =>
    match w.handles[h]? with
    | some r =>
      match q.perform r w.site with
      | (x, s) => (some x, ⟨s, w.handles⟩)
    | none => (none, w)

def after (w : World) (es : List Event) : World := es.foldl (fun w e => (w.step e).2) w

end World

/-! ### Chronicles -/

/-- A rendering that took place: the repository, the disk, and the names that were asked for. -/
structure Visit where
  repository : Repository
  disk : Disk
  names : List String

/-- The template that the store's text for a name was read as, if the name was asked for. -/
def Visit.template? (v : Visit) (name : String) : Option Template :=
  if name ∈ v.names then
    (Repository.compiled name (v.repository.store.held v.disk name)).toOption
  else none

/-- The disk and the repositories, each with its store and the number of its cache, how many caches
there are, and the renderings so far. -/
structure Chronicle where
  disk : Disk
  handles : List Repository
  caches : Nat
  visits : List Visit

namespace Chronicle

def start (d : Disk) : Chronicle := ⟨d, [], 0, []⟩

/-- **The first template that was read for a name through a cache.** -/
def first? (c : Chronicle) (cache : Nat) (name : String) : Option Template :=
  c.visits.findSome? fun v => if v.repository.shelf = cache then v.template? name else none

/-- The answer to a question for a template: the first that was read, or else what the store's text
is read as now. -/
def answer (c : Chronicle) (r : Repository) (name : String) : Except RenderFault Template :=
  match c.first? r.shelf name with
  | some t => .ok t
  | none => Repository.compiled name (r.store.held c.disk name)

/-- The names for which a template was read through a cache, in order. -/
def names (c : Chronicle) (cache : Nat) : List String :=
  distinctSorted ((c.visits.flatMap Visit.names).filter fun name => (c.first? cache name).isSome)

/-- Another repository, with a cache of its own. -/
def gain (c : Chronicle) (st : Store) : Chronicle :=
  { c with handles := c.handles ++ [⟨st, c.caches⟩], caches := c.caches + 1 }

/-- A rendering through a repository. -/
def visit (c : Chronicle) (r : Repository) (q : Request) : Visit :=
  ⟨r, c.disk, q.inquiry.asked (c.answer r) (r.store.listed c.disk) (c.names r.shelf)⟩

def step (c : Chronicle) : Event → Answer × Chronicle
  | .change d => (none, { c with disk := d })
  | .new st => (none, c.gain st)
  | .open root =>
    match (DirectoryStore.open root (.on c.disk)).1 with
    | .ok st => (none, c.gain (.directory st))
    | .error f => (some (.error f), c)
  | .clone h =>
    match c.handles[h]? with
    | some r => (none, { c with handles := c.handles ++ [r] })
    | none => (none, c)
  | .clear h =>
    match c.handles[h]? with
    | some r =>
      (none, { c with handles := c.handles.set h ⟨r.store, c.caches⟩, caches := c.caches + 1 })
    | none => (none, c)
  | .render h q =>
    match c.handles[h]? with
    | some r =>
      (some (q.inquiry.eval (c.answer r) (r.store.listed c.disk) (c.names r.shelf)),
        { c with visits := c.visits ++ [c.visit r q] })
    | none => (none, c)

def after (c : Chronicle) (es : List Event) : Chronicle := es.foldl (fun c e => (c.step e).2) c

variable {c : Chronicle} {cache : Nat} {name : String} {r : Repository} {v : Visit}

theorem first?_append (c : Chronicle) (v : Visit) (cache : Nat) (name : String) :
    { c with visits := c.visits ++ [v] }.first? cache name = (c.first? cache name).or
      (if v.repository.shelf = cache then v.template? name else none) := by
  rw [first?, List.findSome?_append, List.findSome?_singleton, first?]

theorem exists_of_first? {x : Template} (h : c.first? cache name = some x) :
    ∃ v ∈ c.visits, v.repository.shelf = cache ∧ v.template? name = some x := by
  obtain ⟨v, hv, hx⟩ := List.exists_of_findSome?_eq_some h
  split at hx
  next hc => exact ⟨v, hv, hc, hx⟩
  · cases hx

theorem mem_names : name ∈ c.names cache ↔ (c.first? cache name).isSome := by
  rw [names, mem_distinctSorted, List.mem_filter, and_iff_right_iff_imp]
  intro h
  obtain ⟨x, hx⟩ := Option.isSome_iff_exists.1 h
  obtain ⟨v, hv, -, hname⟩ := exists_of_first? hx
  refine List.mem_flatMap.2 ⟨v, hv, ?_⟩
  by_contra hn
  rw [Visit.template?, if_neg hn] at hname
  cases hname

theorem answer_of_first? {x : Template} (h : c.first? r.shelf name = some x) :
    c.answer r name = .ok x := by rw [answer, h]

theorem answer_of_none (h : c.first? r.shelf name = none) :
    c.answer r name = Repository.compiled name (r.store.held c.disk name) := by rw [answer, h]

/-- What the rendering now adds to what was read before. -/
theorem visit_template? (c : Chronicle) (r : Repository) (q : Request) (name : String) :
    (c.first? r.shelf name).or ((c.visit r q).template? name) =
      if name ∈ (c.visit r q).names then (c.answer r name).toOption
      else c.first? r.shelf name := by
  rw [Visit.template?]
  cases hf : c.first? r.shelf name with
  | some x => simp [answer_of_first? hf, Except.toOption]
  | none =>
    rw [answer_of_none hf]
    rfl

/-- The repositories that there are and those that have rendered. -/
def repositories (c : Chronicle) : List Repository :=
  c.handles ++ c.visits.map Visit.repository

/-- **Each cache has come into being, and belongs to one store.** -/
structure Sound (c : Chronicle) : Prop where
  lt : ∀ r ∈ c.repositories, r.shelf < c.caches
  store : ∀ r ∈ c.repositories, ∀ r' ∈ c.repositories, r.shelf = r'.shelf → r.store = r'.store

theorem mem_of_handle (h : r ∈ c.handles) : r ∈ c.repositories := List.mem_append_left _ h

theorem mem_of_visit (h : v ∈ c.visits) : v.repository ∈ c.repositories :=
  List.mem_append_right _ (List.mem_map_of_mem h)

theorem mem_repositories {r : Repository} (h : r ∈ c.repositories) :
    r ∈ c.handles ∨ ∃ v ∈ c.visits, v.repository = r := by
  rcases List.mem_append.1 h with h | h
  · exact .inl h
  · exact .inr (List.mem_map.1 h)

namespace Sound

variable {c' : Chronicle}

theorem start (d : Disk) : (Chronicle.start d).Sound := ⟨by simp [Chronicle.start, repositories],
  by simp [Chronicle.start, repositories]⟩

theorem of_subset (h : c.Sound) (hc : c'.caches = c.caches)
    (hsub : ∀ r ∈ c'.repositories, r ∈ c.repositories) : c'.Sound :=
  ⟨fun r hr => hc ▸ h.lt r (hsub r hr), fun r hr r' hr' => h.store r (hsub r hr) r' (hsub r' hr')⟩

/-- A cache that has just come into being has one repository. -/
theorem of_new (h : c.Sound) (st : Store) (hc : c'.caches = c.caches + 1)
    (hsub : ∀ r ∈ c'.repositories, r ∈ c.repositories ∨ r = ⟨st, c.caches⟩) : c'.Sound := by
  constructor
  · intro r hr
    rw [hc]
    rcases hsub r hr with hr | rfl
    · exact (h.lt r hr).trans (Nat.lt_succ_self _)
    · exact Nat.lt_succ_self _
  · intro r hr r' hr' heq
    rcases hsub r hr with hr | rfl <;> rcases hsub r' hr' with hr' | rfl
    · exact h.store r hr r' hr' heq
    · exact absurd heq (h.lt r hr).ne
    · exact absurd heq.symm (h.lt r' hr').ne
    · rfl

theorem gain (h : c.Sound) (st : Store) : (c.gain st).Sound := by
  refine h.of_new st rfl fun r hr => ?_
  rcases mem_repositories hr with hr | ⟨v, hv, rfl⟩
  · exact (List.mem_append.1 hr).imp mem_of_handle List.mem_singleton.1
  · exact .inl (mem_of_visit hv)

theorem step (h : c.Sound) (e : Event) : (c.step e).2.Sound := by
  cases e with
  | change d => exact h.of_subset rfl fun r hr => hr
  | new st => exact h.gain st
  | «open» root =>
    simp only [Chronicle.step]
    cases (DirectoryStore.open root (.on c.disk)).1 with
    | error f => exact h
    | ok st => exact h.gain (.directory st)
  | clone i =>
    simp only [Chronicle.step]
    cases hi : c.handles[i]? with
    | none => exact h
    | some r =>
      -- the copy shares the cache of the repository it is made from
      refine h.of_subset rfl fun r' hr => ?_
      rcases mem_repositories hr with hr | ⟨v, hv, rfl⟩
      · rcases List.mem_append.1 hr with hr | hr
        · exact mem_of_handle hr
        · rw [List.mem_singleton.1 hr]
          exact mem_of_handle (List.mem_of_getElem? hi)
      · exact mem_of_visit hv
  | clear i =>
    simp only [Chronicle.step]
    cases hi : c.handles[i]? with
    | none => exact h
    | some r =>
      -- a cache that is cleared is a new one for the same store
      refine h.of_new r.store rfl fun r' hr => ?_
      rcases mem_repositories hr with hr | ⟨v, hv, rfl⟩
      · exact (List.mem_or_eq_of_mem_set hr).imp_left mem_of_handle
      · exact .inl (mem_of_visit hv)
  | render i q =>
    simp only [Chronicle.step]
    cases hi : c.handles[i]? with
    | none => exact h
    | some r =>
      refine h.of_subset rfl fun r' hr => ?_
      rcases mem_repositories hr with hr | ⟨v, hv, rfl⟩
      · exact mem_of_handle hr
      · rcases List.mem_append.1 hv with hv | hv
        · exact mem_of_visit hv
        · rw [List.mem_singleton.1 hv]
          exact mem_of_handle (List.mem_of_getElem? hi)

theorem after (h : c.Sound) (es : List Event) : (c.after es).Sound := by
  induction es generalizing c with
  | nil => exact h
  | cons e es ih => exact ih (h.step e)

/-- Nothing was read through a cache that has not come into being. -/
theorem first?_of_le (h : c.Sound) (hle : c.caches ≤ cache) (name : String) :
    c.first? cache name = none := by
  by_contra hne
  obtain ⟨x, hx⟩ := Option.ne_none_iff_exists'.1 hne
  obtain ⟨v, hv, rfl, -⟩ := exists_of_first? hx
  exact absurd (h.lt _ (mem_of_visit hv)) (Nat.not_lt.2 hle)

theorem names_of_le (h : c.Sound) (hle : c.caches ≤ cache) : c.names cache = [] := by
  refine List.eq_nil_iff_forall_not_mem.2 fun name hname => ?_
  rw [mem_names, h.first?_of_le hle] at hname
  cases hname

end Sound

/-! ### What a stretch of time can change -/

theorem step_disk (c : Chronicle) (e : Event) : (c.step e).2.disk = e.disk c.disk := by
  cases e with
  | change d => rfl
  | new st => rfl
  | «open» root =>
    simp only [step]
    cases (DirectoryStore.open root (.on c.disk)).1 <;> rfl
  | clone i =>
    simp only [step]
    cases c.handles[i]? <;> rfl
  | clear i =>
    simp only [step]
    cases c.handles[i]? <;> rfl
  | render i q =>
    simp only [step]
    cases c.handles[i]? <;> rfl

theorem after_disk (c : Chronicle) (es : List Event) : (c.after es).disk = diskAfter c.disk es := by
  induction es generalizing c with
  | nil => rfl
  | cons e es ih =>
    have hrest := ih (c.step e).2
    rw [step_disk] at hrest
    exact hrest

theorem disk_step_cases (c : Chronicle) (e : Event) :
    (c.step e).2.disk = c.disk ∨ e = .change (c.step e).2.disk := by
  cases e with
  | change d => exact .inr rfl
  | new | «open» | clone | clear | render => exact .inl (c.step_disk _)

theorem mem_visits_step {e : Event} (h : v ∈ (c.step e).2.visits) :
    v ∈ c.visits ∨ v.disk = c.disk := by
  cases e with
  | change d => exact .inl h
  | new st => exact .inl h
  | «open» root =>
    simp only [step] at h
    cases ho : (DirectoryStore.open root (.on c.disk)).1 <;> rw [ho] at h <;> exact .inl h
  | clone i => simp only [step] at h; cases hi : c.handles[i]? <;> rw [hi] at h <;> exact .inl h
  | clear i => simp only [step] at h; cases hi : c.handles[i]? <;> rw [hi] at h <;> exact .inl h
  | render i q =>
    simp only [step] at h
    cases hi : c.handles[i]? with
    | none => rw [hi] at h; exact .inl h
    | some r =>
      rw [hi] at h
      refine (List.mem_append.1 h).imp_right fun h => ?_
      rw [List.mem_singleton.1 h]
      rfl

theorem disk_after_cases (c : Chronicle) (es : List Event) :
    (c.after es).disk = c.disk ∨ .change (c.after es).disk ∈ es := by
  induction es generalizing c with
  | nil => exact .inl rfl
  | cons e es ih =>
    rcases ih (c.step e).2 with h | h
    · refine (c.disk_step_cases e).imp h.trans fun he => ?_
      rw [show (c.after (e :: es)).disk = _ from h, ← he]
      exact List.mem_cons_self
    · exact .inr (List.mem_cons_of_mem e h)

/-- A rendering that has been added took place on one of the disks of its time. -/
theorem mem_visits_after {es : List Event} (h : v ∈ (c.after es).visits) :
    v ∈ c.visits ∨ v.disk = c.disk ∨ .change v.disk ∈ es := by
  induction es generalizing c with
  | nil => exact .inl h
  | cons e es ih =>
    rcases ih (c := (c.step e).2) h with h | h | h
    · exact (mem_visits_step h).imp_right .inl
    · refine .inr ((c.disk_step_cases e).imp h.trans fun he => ?_)
      rw [h, ← he]
      exact List.mem_cons_self
    · exact .inr (.inr (List.mem_cons_of_mem e h))

/-- **A cache that came into being since the store changed last** answers with what the store holds
now. -/
theorem answer_of_unchanged {es : List Event} (hs : c.Sound) (hr : r ∈ (c.after es).handles)
    (hnew : c.caches ≤ r.shelf)
    (hsame : ∀ d, .change d ∈ es → ∀ name, r.store.held d name = r.store.held c.disk name) :
    (c.after es).answer r =
      fun name => Repository.compiled name (r.store.held (c.after es).disk name) := by
  have hheld : ∀ d : Disk, d = c.disk ∨ .change d ∈ es → ∀ name,
      r.store.held d name = r.store.held c.disk name := by
    rintro d (rfl | hd) name
    · rfl
    · exact hsame d hd name
  funext name
  cases hf : (c.after es).first? r.shelf name with
  | none => exact answer_of_none hf
  | some x =>
    obtain ⟨v, hv, hc, hx⟩ := exists_of_first? hf
    -- the rendering through this cache took place since then, and read the text that is there now
    have hstore : v.repository.store = r.store :=
      (hs.after es).store _ (mem_of_visit hv) _ (mem_of_handle hr) hc
    have hdisk : v.disk = c.disk ∨ .change v.disk ∈ es := by
      refine (mem_visits_after hv).resolve_left fun hold => ?_
      exact absurd (hs.lt _ (mem_of_visit hold)) (Nat.not_lt.2 (hc ▸ hnew))
    rw [answer_of_first? hf, hheld _ (c.disk_after_cases es), ← hheld _ hdisk, ← hstore]
    rw [Visit.template?] at hx
    split_ifs at hx
    cases ht : Repository.compiled name (v.repository.store.held v.disk name) with
    | error f => rw [ht] at hx; cases hx
    | ok y => rw [ht] at hx; cases hx; rfl

/-- A new repository renders with what its store holds now, and has kept nothing before. -/
theorem step_render_gain (hs : c.Sound) (st : Store) (q : Request) :
    ((c.gain st).step (.render c.handles.length q)).1 = some (q.inquiry.eval
      (fun name => Repository.compiled name (st.held c.disk name)) (st.listed c.disk)
      (some [])) := by
  have hnew : (c.gain st).handles[c.handles.length]? = some ⟨st, c.caches⟩ := by simp [gain]
  have hanswer : (c.gain st).answer ⟨st, c.caches⟩ =
      fun name => Repository.compiled name (st.held c.disk name) := by
    funext name
    exact answer_of_none (hs.first?_of_le le_rfl name)
  have hnames : (c.gain st).names c.caches = [] := hs.names_of_le le_rfl
  simp only [step, hnew, hanswer, hnames]
  rfl

end Chronicle

/-! ### The two agree -/

/-- **A world and a chronicle that agree**: each cache keeps just the first templates that were read
through it. -/
structure Agrees (w : World) (c : Chronicle) : Prop where
  disk : w.site.disk = c.disk
  handles : w.handles = c.handles
  caches : w.site.shelves.length = c.caches
  kept : ∀ cache name, w.site.kept? cache name = c.first? cache name

namespace Agrees

variable {w : World} {c : Chronicle} {r : Repository} {e : Event}

theorem start (d : Disk) : Agrees (.start d) (.start d) := by
  refine ⟨rfl, rfl, rfl, fun cache name => ?_⟩
  simp [World.start, Site.on, Site.kept?, Chronicle.start, Chronicle.first?]

theorem answer_eq (h : Agrees w c) (r : Repository) : r.answer w.site = c.answer r := by
  funext name
  cases hf : c.first? r.shelf name with
  | some x =>
    rw [Chronicle.answer_of_first? hf]
    exact Repository.answer_of_kept ((h.kept _ _).trans hf)
  | none =>
    rw [Chronicle.answer_of_none hf, Repository.answer_of_missing ((h.kept _ _).trans hf), h.disk]

/-- A shelf has the names for which a template was read through its cache. -/
theorem shelfNames_eq (h : Agrees w c) (hlt : r.shelf < c.caches) :
    r.shelfNames w.site = some (c.names r.shelf) :=
  Repository.shelfNames_eq_some (h.caches ▸ hlt) fun name => by
    rw [h.kept, ← Chronicle.mem_names, Chronicle.names, mem_distinctSorted]

/-- Only the disk and the shelves count. -/
theorem of_alike {s : Site} {hs : List Repository} (h : Agrees ⟨s, hs⟩ c) {t : Site}
    (hd : t.disk = s.disk) (ht : t.shelves = s.shelves) : Agrees ⟨t, hs⟩ c := by
  refine ⟨hd.trans h.disk, h.handles, (congrArg List.length ht).trans h.caches, ?_⟩
  intro cache name
  rw [Site.kept?, ht]
  exact h.kept cache name

/-- A new cache, on an empty shelf. -/
theorem newShelf (h : Agrees w c) (hs : List Repository) :
    Agrees ⟨(Work.newShelf w.site).2, hs⟩ { c with handles := hs, caches := c.caches + 1 } := by
  refine ⟨h.disk, rfl, ?_, fun cache name => ?_⟩
  · simpa [Work.newShelf] using h.caches
  · have hkept := h.kept cache name
    rw [Site.kept?] at hkept ⊢
    refine Eq.trans ?_ hkept
    simp only [Work.newShelf, List.getElem?_append]
    -- what is beyond the old shelves is empty, before and after
    split_ifs with hc
    · rfl
    · rw [List.getElem?_eq_none (Nat.le_of_not_lt hc)]
      cases cache - w.site.shelves.length <;> rfl

/-- A new repository, made on a site that differs in notices alone. -/
theorem gain (h : Agrees w c) {s : Site} (st : Store) (hd : s.disk = w.site.disk)
    (hs : s.shelves = w.site.shelves) :
    Agrees ⟨(Work.newShelf s).2, w.handles ++ [⟨st, s.shelves.length⟩]⟩ (c.gain st) := by
  have hc : s.shelves.length = c.caches := (congrArg List.length hs).trans h.caches
  rw [hc, h.handles]
  exact newShelf (w := ⟨s, w.handles⟩) (of_alike h hd hs) _

theorem step_open (h : Agrees w c) (root : Path) :
    (w.step (.open root)).1 = (c.step (.open root)).1 ∧
      Agrees (w.step (.open root)).2 (c.step (.open root)).2 := by
  have hreads := DirectoryStore.reads_open root
  obtain ⟨r, s, hs⟩ : ∃ r s, DirectoryStore.open root w.site = (r, s) := ⟨_, _, rfl⟩
  have hd : s.disk = w.site.disk := by simpa only [hs] using hreads.disk_eq w.site
  have hshelves : s.shelves = w.site.shelves := by simpa only [hs] using hreads.shelves_eq w.site
  have hr : (DirectoryStore.open root (.on c.disk)).1 = r := by
    rw [← h.disk, ← hreads.result, hs]
  simp only [World.step, Chronicle.step, World.gain, hr]
  cases r with
  | error f =>
    have hopen : Repository.open root w.site = (.error f, s) := Work.bind_of_error hs
    rw [hopen]
    exact ⟨rfl, of_alike h hd hshelves⟩
  | ok st =>
    have hopen : Repository.open root w.site = Repository.new (.directory st) s :=
      Work.bind_of_ok hs
    rw [hopen]
    exact ⟨rfl, h.gain (.directory st) hd hshelves⟩

theorem step_render (h : Agrees w c) (hs : c.Sound) (i : Nat) (q : Request) :
    (w.step (.render i q)).1 = (c.step (.render i q)).1 ∧
      Agrees (w.step (.render i q)).2 (c.step (.render i q)).2 := by
  simp only [World.step, Chronicle.step, h.handles]
  cases hr : c.handles[i]? with
  | none => exact ⟨rfl, h⟩
  | some r =>
    have hlt := hs.lt r (Chronicle.mem_of_handle (List.mem_of_getElem? hr))
    obtain ⟨t, ht, hkeep⟩ := q.inquiry.conduct_apply r w.site
    rw [Inquiry.resultAt, h.answer_eq, h.disk, h.shelfNames_eq hlt] at ht
    rw [h.answer_eq, h.disk, h.shelfNames_eq hlt] at hkeep
    have hperform : q.perform r w.site =
        (q.inquiry.eval (c.answer r) (r.store.listed c.disk) (c.names r.shelf), t) := by
      rw [q.perform_eq, Work.bind_of_ok ht]
      cases q.inquiry.eval (c.answer r) (r.store.listed c.disk) (c.names r.shelf) <;> rfl
    have hshelf : (c.visit r q).repository.shelf = r.shelf := rfl
    simp only [hperform, true_and]
    refine ⟨hkeep.disk.trans h.disk, rfl, hkeep.count.trans h.caches, fun cache name => ?_⟩
    rw [Chronicle.first?_append, hshelf]
    by_cases hc : r.shelf = cache
    · -- the cache keeps the answers for the names that were asked for
      subst hc
      rw [hkeep.own (h.caches ▸ hlt), h.answer_eq, h.kept, if_pos rfl, Chronicle.visit_template?]
      rfl
    · rw [hkeep.other cache name (Ne.symm hc), h.kept, if_neg hc, Option.or_none]

/-- **Every event has the same answer**, and leaves a world and a chronicle that agree. -/
theorem step (h : Agrees w c) (hs : c.Sound) (e : Event) :
    (w.step e).1 = (c.step e).1 ∧ Agrees (w.step e).2 (c.step e).2 := by
  cases e with
  | change d => exact ⟨rfl, rfl, h.handles, h.caches, h.kept⟩
  | new st => exact ⟨rfl, h.gain st rfl rfl⟩
  | «open» root => exact h.step_open root
  | clone i =>
    simp only [World.step, Chronicle.step, h.handles]
    cases hr : c.handles[i]? with
    | none => exact ⟨rfl, h⟩
    | some r => exact ⟨rfl, h.disk, rfl, h.caches, h.kept⟩
  | clear i =>
    simp only [World.step, Chronicle.step, h.handles]
    cases hr : c.handles[i]? with
    | none => exact ⟨rfl, h⟩
    | some r =>
      obtain ⟨s, hnote, hd, hshelves⟩ : ∃ s, Work.debug "Clearing template cache" w.site =
        (.ok (), s) ∧ s.disk = w.site.disk ∧ s.shelves = w.site.shelves := ⟨_, rfl, rfl, rfl⟩
      have hcount : s.shelves.length = c.caches := (congrArg List.length hshelves).trans h.caches
      have hcleared : r.cleared w.site = (.ok ⟨r.store, c.caches⟩, (Work.newShelf s).2) := by
        rw [← hcount]
        exact Work.bind_of_ok hnote
      simp only [hcleared, true_and]
      exact newShelf (w := ⟨s, w.handles⟩) (of_alike h hd hshelves) _
  | render i q => exact h.step_render hs i q

theorem after (h : Agrees w c) (hs : c.Sound) (es : List Event) :
    Agrees (w.after es) (c.after es) := by
  induction es generalizing w c with
  | nil => exact h
  | cons e es ih => exact ih (h.step hs e).2 (hs.step e)

end Agrees

/-- No event but a change of files has an effect on the disk. -/
theorem World.after_disk (d : Disk) (es : List Event) :
    ((World.start d).after es).site.disk = diskAfter d es := by
  have hagrees := (Agrees.start d).after (Chronicle.Sound.start d) es
  rw [hagrees.disk, Chronicle.after_disk]
  rfl

/-- **Caches over time.** The repositories and every answer are those of the chronicle. So where what
a store holds has not changed since a cache came into being, a repository with this cache renders like
a new one, if no template asks what is kept. -/
theorem answers_of_caches (d : Disk) :
    (∀ es, ((World.start d).after es).handles = ((Chronicle.start d).after es).handles ∧
      ∀ e, (((World.start d).after es).step e).1 = (((Chronicle.start d).after es).step e).1) ∧
    ∀ before since i r,
      let w₀ := (World.start d).after before
      let w := w₀.after since
      w.handles[i]? = some r → w₀.site.shelves.length ≤ r.shelf →
      (∀ e, .change e ∈ since → ∀ name,
        r.store.held e name = r.store.held w₀.site.disk name) →
      ∀ q : Request, q.unasked r.store w.site.disk = true →
        ((w.step (.new r.store)).2.step (.render w.handles.length q)).1 =
          (w.step (.render i q)).1 ∧
        ∀ root, (w.step (.open root)).1 = none →
          r.store = .directory (.below root) →
          ((w.step (.open root)).2.step (.render w.handles.length q)).1 =
            (w.step (.render i q)).1 := by
  have hstart := Chronicle.Sound.start d
  have hagrees := Agrees.start d
  refine ⟨fun es => ⟨(hagrees.after hstart es).handles, fun e =>
    ((hagrees.after hstart es).step (hstart.after es) e).1⟩, ?_⟩
  intro before since i r w₀ w hr hnew hsame q hun
  have hs₀ := hstart.after before
  have h₀ : Agrees w₀ _ := hagrees.after hstart before
  -- of what happened before the cache came into being only the chronicle is needed
  generalize (Chronicle.start d).after before = c₀ at hs₀ h₀
  have hs := hs₀.after since
  have h : Agrees w _ := h₀.after hs₀ since
  rw [h.handles] at hr ⊢
  rw [h.disk] at hun
  rw [h₀.disk] at hsame
  rw [h₀.caches] at hnew
  have hanswer := Chronicle.answer_of_unchanged hs₀ (List.mem_of_getElem? hr) hnew hsame
  generalize c₀.after since = c at hs h hr hanswer hun
  have hrender : (w.step (.render i q)).1 = some (q.inquiry.eval
      (fun name => Repository.compiled name (r.store.held c.disk name)) (r.store.listed c.disk)
      (c.names r.shelf)) := by
    rw [(h.step hs _).1]
    simp only [Chronicle.step, hr, hanswer]
  -- the two keep different templates, which makes no difference to what does not ask
  have hfresh : ((c.gain r.store).step (.render c.handles.length q)).1 =
      (w.step (.render i q)).1 := by
    rw [Chronicle.step_render_gain hs, hrender]
    exact congrArg some (Inquiry.steady_of_unasked hun _ _)
  constructor
  · rw [((h.step hs (.new r.store)).2.step (hs.step _) _).1]
    exact hfresh
  · intro root hopen hstore
    rw [((h.step hs (.open root)).2.step (hs.step _) _).1]
    rw [(h.step hs (.open root)).1] at hopen
    simp only [Chronicle.step] at hopen ⊢
    cases ho : (DirectoryStore.open root (.on c.disk)).1 with
    | error f => rw [ho] at hopen; cases hopen
    | ok st =>
      have hst : .directory st = r.store := by rw [hstore, DirectoryStore.eq_of_open ho]
      rw [← hfresh, ← hst]
      rfl

/-- A disk with a store whose template for `p` includes the one for `q`, and with a file beside it. -/
def hosting (word note : String) : Disk :=
  let group (text : String) : DiskEntry := .directory [("m.jinja", .file (.text text))]
  ⟨.directory [("note", .file (.text note)), ("store", .directory [("templates", .directory
    [("p", group (word ++ ", \x7b% include 'q/m.jinja' %\x7d!")), ("q", group "you")])])], []⟩

/-- What the template for `p` is read as, where it greets with `Hello`. -/
def greeting : Template :=
  ⟨"p/m.jinja", [.text "Hello, ", .insert 1 (.literal 1 (.text "q/m.jinja")) false, .text "!"]⟩

set_option maxRecDepth 10000 in
theorem compiled_hosting (note : String) :
    let held := Store.held (.directory (.below ⟨"store"⟩)) (hosting "Hello" note)
    Repository.compiled "p/m.jinja" (held "p/m.jinja") = .ok greeting ∧
      Repository.compiled "q/m.jinja" (held "q/m.jinja") = .ok ⟨"q/m.jinja", [.text "you"]⟩ := by
  intro held
  have hp : held "p/m.jinja" = .ok (some "Hello, \x7b% include 'q/m.jinja' %\x7d!") := rfl
  have hq : held "q/m.jinja" = .ok (some "you") := rfl
  rw [hp, hq]
  constructor
  · cbv
  · rfl

/-- The template comes to its text, and does not ask what is kept. -/
theorem eval_greeting {A : String → Except RenderFault Template}
    {M : String → Except Failure (List String)} (hp : A "p/m.jinja" = .ok greeting)
    (hq : A "q/m.jinja" = .ok ⟨"q/m.jinja", [.text "you"]⟩) :
    let q := (Request.template "p" "m" (.object [])).inquiry
    q.unasked A M = true ∧ ∀ K, q.eval A M K = .ok "Hello, you!" := by
  intro q
  have hq' : q = renderNamed Node.rendering "p" "m" (.ofJson (.object [])) := rfl
  -- two levels are enough
  obtain ⟨n, hn⟩ : ∃ n, Template.levels = n + 1 + 1 := ⟨9998, rfl⟩
  rw [hq']
  simp only [renderNamed, Template.renderTemplate, hn]
  refine ⟨?_, fun K => ?_⟩
  -- it runs up to the next question for a template, whose answer is put in
  all_goals
    cbv
    rw [hp]
    cbv
    rw [hq]
    cbv

/-- A repository that is cleared after its store has changed. Later only the file beside it changes. -/
theorem answers_of_greeting :
    let q : Request := .template "p" "m" (.object [])
    let st : Store := .directory (.below ⟨"store"⟩)
    let w₀ := (World.start (hosting "Hi" "")).after
      [.open ⟨"store"⟩, .render 0 q, .change (hosting "Hello" "")]
    let w := w₀.after [.clear 0, .render 0 q, .change (hosting "Hello" "more")]
    w.handles[0]? = some ⟨st, 1⟩ ∧ (w.step (.render 0 q)).1 = some (.ok "Hello, you!") ∧
      ((w.step (.open ⟨"store"⟩)).2.step (.render 1 q)).1 = (w.step (.render 0 q)).1 := by
  intro q st w₀ w
  let before : List Event := [.open ⟨"store"⟩, .render 0 q, .change (hosting "Hello" "")]
  let since : List Event := [.clear 0, .render 0 q, .change (hosting "Hello" "more")]
  have hs₀ := (Chronicle.Sound.start (hosting "Hi" "")).after before
  have h₀ : Agrees w₀ _ := (Agrees.start _).after (Chronicle.Sound.start _) before
  have hs := hs₀.after since
  have h : Agrees w _ := h₀.after hs₀ since
  have hr : w.handles[0]? = some ⟨st, 1⟩ := by
    rw [h.handles]
    rfl
  have hlength : w.handles.length = 1 := by
    rw [h.handles]
    rfl
  have hcaches : w₀.site.shelves.length = 1 := by
    rw [h₀.caches]
    rfl
  have hopen : (w.step (.open ⟨"store"⟩)).1 = none := by
    rw [(h.step hs _).1]
    rfl
  have hdisk₀ : w₀.site.disk = hosting "Hello" "" := World.after_disk _ before
  have hdisk : w.site.disk = hosting "Hello" "more" := by
    rw [h.disk, Chronicle.after_disk]
    rfl
  -- the file beside the store is in neither of its directories
  have hpools : (DirectoryStore.below ⟨"store"⟩).SamePools (hosting "Hello" "more")
    (hosting "Hello" "") := ⟨rfl, rfl⟩
  have hsame : ∀ e, .change e ∈ since → ∀ name,
      st.held e name = st.held w₀.site.disk name := by
    intro e he name
    obtain rfl : e = hosting "Hello" "more" := by simpa [since] using he
    rw [hdisk₀]
    exact DirectoryStore.source_congr (s := .on (hosting "Hello" "more")) (t := .on (hosting "Hello" ""))
      hpools (DirectoryStore.text_below_ne_empty _) name
  obtain ⟨hp, hq⟩ := compiled_hosting "more"
  let A (name : String) := Repository.compiled name (st.held (hosting "Hello" "more") name)
  obtain ⟨hun, htext⟩ := eval_greeting (A := A) (M := st.listed (hosting "Hello" "more")) hp hq
  have hnever : q.unasked st w.site.disk = true := by
    rw [hdisk]
    exact hun
  obtain ⟨hnew, hopened⟩ := (answers_of_caches (hosting "Hi" "")).2 before since 0 _ hr hcaches.le
    hsame q hnever
  refine ⟨hr, ?_, hlength ▸ hopened ⟨"store"⟩ hopen rfl⟩
  -- the text is that of a new repository
  rw [← hnew, ((h.step hs (.new st)).2.step (hs.step _) _).1, h.handles]
  refine (Chronicle.step_render_gain hs st q).trans ?_
  rw [← h.disk, hdisk]
  exact congrArg some (htext _)

/-- A store with two templates, one of which asks whether the other one is kept. -/
def inspecting : Store :=
  .memory ((MemoryStore.empty.insert "p" "m" "\x7b\x7b 'q/m.jinja' in debug() \x7d\x7d").insert
    "q" "m" "text")

/-- What the template that asks is read as. -/
def inspection : Template :=
  ⟨"p/m.jinja", [.emit 1 (.binary .member (.literal 1 (.text "q/m.jinja"))
    (.call 1 (.name 1 "debug") []))]⟩

set_option maxRecDepth 10000 in
theorem compiled_inspecting (d : Disk) :
    Repository.compiled "p/m.jinja" (inspecting.held d "p/m.jinja") = .ok inspection := by
  have hp : inspecting.held d "p/m.jinja" =
    .ok (some "\x7b\x7b 'q/m.jinja' in debug() \x7d\x7d") := rfl
  rw [hp]
  cbv

open Template in
/-- The text that it comes to, after nothing or only the other template has been kept. -/
theorem eval_inspection :
    let A name := Repository.compiled name (inspecting.held Disk.empty name)
    let q := (Request.template "p" "m" (.object [])).inquiry
    q.eval A (inspecting.listed Disk.empty) (some []) = .ok "False" ∧
      q.eval A (inspecting.listed Disk.empty) (some ["q/m.jinja"]) = .ok "True" := by
  intro A q
  let shown (kept : List String) := (renderTemplate Node.rendering inspection (.map [])).eval A
    (inspecting.listed Disk.empty) (some kept)
  have hshown : (shown ["p/m.jinja"]).toOption = some "False" ∧
      (shown ["p/m.jinja", "q/m.jinja"]).toOption = some "True" := by
    -- the recursion over statements and expressions is taken step by step, the rest is computed
    simp only [shown, A, renderTemplate, runBody, inspection, runAll, Statement.run, showExpression,
      Expression.eval, evalArguments, evalPlain, evalNamed]
    decide +kernel
  have hq (kept : List String) : q.eval A (inspecting.listed Disk.empty) (some kept) =
      (shown (distinctSorted ("p/m.jinja" :: kept))).mapError (.render "p/m.jinja") := by
    have hread : A "p/m.jinja" = .ok inspection := compiled_inspecting Disk.empty
    have hname : templateName "p" "m" = "p/m.jinja" := by decide
    refine (eval_renderNamed Node.rendering "p" "m" (.ofJson (.object []))).trans ?_
    rw [hname, hread, Kept.having, hread]
    rfl
  exact ⟨(hq []).trans (congrArg _ (eq_ok_of_toOption hshown.1)),
    (hq ["q/m.jinja"]).trans (congrArg _ (eq_ok_of_toOption hshown.2))⟩

/-- **A template can ask what is kept.** Then a repository that has rendered the other template gives
another text than a new one, though nothing has changed since its cache came into being. -/
theorem answers_of_inspecting :
    let q (tag : String) : Request := .template tag "m" (.object [])
    let w := (World.start Disk.empty).after [.new inspecting, .render 0 (q "q")]
    (w.step (.render 0 (q "p"))).1 = some (.ok "True") ∧
      ((w.step (.new inspecting)).2.step (.render 1 (q "p"))).1 = some (.ok "False") := by
  intro q w
  let es : List Event := [.new inspecting, .render 0 (q "q")]
  have hs := (Chronicle.Sound.start Disk.empty).after es
  have h : Agrees w _ := (Agrees.start _).after (Chronicle.Sound.start _) es
  have hr : ((Chronicle.start Disk.empty).after es).handles = [⟨inspecting, 0⟩] := rfl
  have hdisk : ((Chronicle.start Disk.empty).after es).disk = Disk.empty := rfl
  -- the rendering that took place has left its template on the shelf
  have hkept : ((Chronicle.start Disk.empty).after es).names 0 = ["q/m.jinja"] := by decide +kernel
  have hanswer : ((Chronicle.start Disk.empty).after es).answer ⟨inspecting, 0⟩ =
      fun name => Repository.compiled name (inspecting.held Disk.empty name) :=
    Chronicle.answer_of_unchanged (Chronicle.Sound.start Disk.empty) (hr ▸ List.mem_cons_self)
      (Nat.zero_le _) (by simp [es])
  obtain ⟨hnew, hold⟩ := eval_inspection
  constructor
  · rw [(h.step hs _).1, Chronicle.step, hr]
    simp only [List.getElem?_cons_zero, hanswer, hdisk, hkept]
    exact congrArg some hold
  · have hfresh := Chronicle.step_render_gain hs inspecting (q "p")
    rw [hr, hdisk] at hfresh
    rw [((h.step hs _).2.step (hs.step _) _).1]
    exact hfresh.trans (congrArg some hnew)

end Scaffold
