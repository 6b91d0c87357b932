import Scaffold.Proofs.Tree.Agreement

/-!
# Tree documents that are read alike

A tree document is read from its text as it comes (`Record.ofDraft`), or from the value of the text
(`Record.ofJson`). A field that is repeated (`RepeatsField`) is refused by the first, where the value
has only the last one; a field of another name that has no value (`SkipsUnreadable`) is passed over by
the first, while the whole text has no value then. Where the text has a value and no field is repeated,
both read the same (`alike_ofDraft`).
-/

namespace Scaffold.Record

open Json

/-! ### Parts of a draft that has a value -/

/-- What the value of a draft says of it, and the draft of its value. -/
inductive Holds (depth : Nat) : Draft → Json → Prop
  | null : Holds depth .null .null
  | bool (b : Bool) : Holds depth (.bool b) (.bool b)
  | number (n : JsonNumber) : Holds depth (.number (some n)) (.number n)
  | string (s : String) : Holds depth (.string (some s)) (.string s)
  | array {items : List Draft} {vs : List Json} : 1 < depth →
      ofDrafts? (depth - 1) items = some vs → Holds depth (.array items true) (.array vs)
  | object {members : List (Option String × Draft)} {ms : List (String × Json)} : 1 < depth →
      ofDraftMembers? (depth - 1) members = some ms →
      Holds depth (.object members true) (.object (sortMembers ms))

section

variable {depth : Nat} {d : Draft} {v : Json}

theorem holds_of_ofDraft? (h : ofDraft? depth d = some v) : Holds depth d v := by
  cases d with
  | null => cases h; exact .null
  | bool b => cases h; exact .bool b
  | number n =>
    obtain ⟨n, rfl, rfl⟩ := Option.map_eq_some_iff.1 h
    exact .number n
  | string s =>
    obtain ⟨s, rfl, rfl⟩ := Option.map_eq_some_iff.1 h
    exact .string s
  | array items closed =>
    rw [ofDraft?] at h
    split_ifs at h with hd
    obtain ⟨vs, hvs, rfl⟩ := Option.map_eq_some_iff.1 h
    obtain ⟨hdepth, hclosed⟩ := not_or.1 hd
    obtain rfl : closed = true := by simpa using hclosed
    exact .array (by omega) hvs
  | object members closed =>
    rw [ofDraft?] at h
    split_ifs at h with hd
    obtain ⟨ms, hms, rfl⟩ := Option.map_eq_some_iff.1 h
    obtain ⟨hdepth, hclosed⟩ := not_or.1 hd
    obtain rfl : closed = true := by simpa using hclosed
    exact .object (by omega) hms
  | broken => cases h

theorem alike_string (h : Holds depth d v) : Alike (· = ·) (stringIn d) (stringOf v) := by
  cases h <;> first | exact .ok rfl | exact .error _ _

theorem alike_optional (h : Holds depth d v) : Alike (· = ·) (optionalIn d) (optionalOf v) := by
  cases h <;> first | exact .ok rfl | exact .error _ _

theorem entriesIn_of_ofDraftMembers? {ms : List (Option String × Draft)} {es : List (String × Json)}
    (h : ofDraftMembers? depth ms = some es) : entriesIn depth ms = .ok es := by
  induction ms generalizing es with
  | nil => cases h; rfl
  | cons m r ih =>
    obtain ⟨k, d⟩ := m
    obtain ⟨l, v, rs, rfl, hv, hrs, rfl⟩ := ofDraftMembers?_cons h
    rw [entriesIn, hv, ih hrs]
    rfl

theorem alike_attributes (hd : d.Exact) (h : Holds depth d v) :
    Alike Attributes.Agrees (attributesIn depth d) (attributesOf v) := by
  cases h with
  | @object members ms hdepth hms =>
    rw [Draft.Exact] at hd
    have hread : attributesIn depth (.object members true) = .ok (Attributes.ofList ms) := by
      rw [attributesIn, if_neg (by omega), entriesIn_of_ofDraftMembers? hms]
      rfl
    rw [hread]
    exact .ok (Attributes.agrees_ofList (same_of_ofDraftMembers? _ hd hms))
  | _ => exact .error _ _

end

/-! ### The two differences -/

/-- The drafts in the place of the children. -/
def itemsOf : Draft → List Draft
  | .array items _ => items
  | _ => []

/-- The drafts of children among members. -/
def membersChildren (ms : List (Option String × Draft)) : List Draft :=
  ms.flatMap fun e => if e.1 = some "children" then itemsOf e.2 else []

/-- The drafts that are read as the children of a record. -/
def childDrafts : Draft → List Draft
  | .object ms _ => membersChildren ms
  | .array (_ :: _ :: _ :: c :: _) _ => itemsOf c
  | _ => []

/-- Some object that is read as a record satisfies `P`, with the depth that is left to it. -/
inductive Within (P : Nat → List (Option String × Draft) → Prop) : Nat → Draft → Prop
  | here {depth : Nat} {ms : List (Option String × Draft)} {closed : Bool} : P depth ms →
      Within P depth (.object ms closed)
  | child {depth : Nat} {d c : Draft} : c ∈ childDrafts d → Within P (depth - 2) c →
      Within P depth d

/-- **One of the four fields is repeated.** -/
def RepeatsField (_ : Nat) (ms : List (Option String × Draft)) : Prop :=
  ∃ k ∈ fieldNames, 1 < (ms.map Prod.fst).count (some k)

/-- **A field of another name has no value**, though it is whole: a number in it is too large, a
string has half of a surrogate pair, or it is nested too deeply. -/
def SkipsUnreadable (depth : Nat) (ms : List (Option String × Draft)) : Prop :=
  ∃ k d, (some k, d) ∈ ms ∧ k ∉ fieldNames ∧ d.isWhole = true ∧ ofDraft? (depth - 1) d = none

theorem mem_membersChildren {ms : List (Option String × Draft)} {c : Draft} :
    c ∈ membersChildren ms ↔ ∃ d, (some "children", d) ∈ ms ∧ c ∈ itemsOf d := by
  rw [membersChildren, List.mem_flatMap]
  constructor
  · rintro ⟨⟨k, d⟩, hm, hc⟩
    split_ifs at hc with hk
    · obtain rfl : k = some "children" := hk
      exact ⟨d, hm, hc⟩
    · cases hc
  · rintro ⟨d, hm, hc⟩
    exact ⟨_, hm, by rw [if_pos rfl]; exact hc⟩

/-! ### A draft that has a value -/

/-- Whether a field has been read. -/
def Parts.has (p : Parts) (k : String) : Bool :=
  if k = "tag" then p.tag.isSome else if k = "value" then p.value.isSome
  else if k = "attributes" then p.attributes.isSome
  else if k = "children" then p.children.isSome else false

/-- No field is read a second time. -/
def Free (p : Parts) (ms : List (Option String × Draft)) : Prop :=
  ∀ k ∈ fieldNames, (p.has k).toNat + (ms.map Prod.fst).count (some k) ≤ 1

section

variable {depth : Nat} {p : Parts} {k : String} {d : Draft} {r : List (Option String × Draft)}

theorem ofDraftMembers_tag : ofDraftMembers depth ((some "tag", d) :: r) p =
    if p.tag.isSome then .error (.duplicateField "tag")
    else stringIn d >>= fun t => ofDraftMembers depth r { p with tag := some t } := by
  simp [ofDraftMembers]

theorem ofDraftMembers_value : ofDraftMembers depth ((some "value", d) :: r) p =
    if p.value.isSome then .error (.duplicateField "value")
    else optionalIn d >>= fun t => ofDraftMembers depth r { p with value := some t } := by
  simp [ofDraftMembers]

theorem ofDraftMembers_attributes : ofDraftMembers depth ((some "attributes", d) :: r) p =
    if p.attributes.isSome then .error (.duplicateField "attributes")
    else attributesIn depth d >>= fun a => ofDraftMembers depth r { p with attributes := some a } := by
  simp [ofDraftMembers]

theorem ofDraftMembers_children : ofDraftMembers depth ((some "children", d) :: r) p =
    if p.children.isSome then .error (.duplicateField "children")
    else childrenIn depth d >>= fun c => ofDraftMembers depth r { p with children := some c } := by
  simp [ofDraftMembers]

theorem ofDraftMembers_other (hk : k ∉ fieldNames) : ofDraftMembers depth ((some k, d) :: r) p =
    if d.isWhole then ofDraftMembers depth r p else .error .form := by
  simp only [fieldNames, List.mem_cons, List.not_mem_nil, or_false, not_or] at hk
  simp [ofDraftMembers, hk]

/-- A field is read once, and then it has been read. -/
theorem free_cons (h : Free p ((some k, d) :: r)) (hk : k ∈ fieldNames) : p.has k = false ∧
    ∀ q : Parts, (∀ l, l ≠ k → q.has l = p.has l) → Free q r := by
  have hcount : ∀ l, (((some k, d) :: r).map Prod.fst).count (some l) =
      (r.map Prod.fst).count (some l) + if k = l then 1 else 0 := fun l => by
    simp [List.count_cons]
  refine ⟨?_, fun q hq l hl => ?_⟩
  · have hself := h k hk
    rw [hcount, if_pos rfl] at hself
    cases hhas : p.has k with
    | false => rfl
    | true => rw [hhas] at hself; simp at hself
  · have hl' := h l hl
    rw [hcount] at hl'
    by_cases hkl : l = k
    · subst hkl
      rw [if_pos rfl] at hl'
      have hbool := Bool.toNat_le (q.has l)
      omega
    · rw [hq l hkl]
      omega

theorem free_other {e : Option String × Draft} (h : Free p (e :: r)) : Free p r := fun l hl => by
  have hcount : (r.map Prod.fst).count (some l) ≤ ((e :: r).map Prod.fst).count (some l) :=
    List.count_le_count_cons
  have hl' := h l hl
  omega

theorem free_none {ms : List (Option String × Draft)}
    (h : ∀ k ∈ fieldNames, (ms.map Prod.fst).count (some k) ≤ 1) : Free Parts.none ms := by
  intro k hk
  have hnone : Parts.none.has k = false := by simp [Parts.has, Parts.none]
  rw [hnone]
  simpa using h k hk

theorem count_of_ofDraftMembers? {ms : List (Option String × Draft)} {es : List (String × Json)}
    (h : ofDraftMembers? depth ms = some es) :
    (ms.map Prod.fst).count (some k) = (Entries.keys es).count k := by
  induction ms generalizing es with
  | nil => cases h; rfl
  | cons m r ih =>
    obtain ⟨l, d⟩ := m
    obtain ⟨l, v, rs, rfl, -, hrs, rfl⟩ := ofDraftMembers?_cons h
    rw [List.map_cons, Entries.keys_cons, List.count_cons, List.count_cons, ih hrs]
    simp

theorem ofJson_positions (t v a c : Json) (rest : List Json) :
    ofJson (.array (t :: v :: a :: c :: rest)) = (do
      let t ← stringOf t
      let v ← optionalOf v
      let a ← attributesOf a
      let c ← childrenOf c
      if rest.isEmpty then .ok (.mk t v a c)
      else .error (.invalidLength (rest.length + 4) "fewer elements in array")) := by
  cases c <;> rfl

theorem isEmpty_of_ofDrafts? {ds : List Draft} {vs : List Json} (h : ofDrafts? depth ds = some vs) :
    ds.isEmpty = vs.isEmpty := by
  cases ds with
  | nil => cases h; rfl
  | cons d r =>
    obtain ⟨_, _, _, _, rfl⟩ := ofDrafts?_cons h
    rfl

section

variable {α : Type} {R : α → α → Prop} {t w : Draft} {t' w' : Json}
  {f g : String → Option String → Except Decode.Fault α}

/-- A tag and a value that stand first are read alike, so that only what follows them matters. -/
theorem alike_leading (ht : ofDraft? depth t = some t') (hw : ofDraft? depth w = some w')
    (h : ∀ s o, Alike R (f s o) (g s o)) :
    Alike R (stringIn t >>= fun s => optionalIn w >>= fun o => f s o)
      (stringOf t' >>= fun s => optionalOf w' >>= fun o => g s o) := by
  refine (alike_string (holds_of_ofDraft? ht)).bind ?_
  rintro s _ rfl
  refine (alike_optional (holds_of_ofDraft? hw)).bind ?_
  rintro o _ rfl
  exact h s o

end

/-- Records of one tag and one value, of attributes that are the same. -/
theorem agrees_leaf {s : String} {o : Option String} {b b' : Attributes} (hb : b.Agrees b') :
    Agrees (.mk s o b []) (.mk s o b' []) := by
  rw [Agrees, AgreesList]
  exact ⟨rfl, rfl, hb, trivial⟩

/-- Fields by position, once the children are read alike. -/
theorem alike_positions {items : List Draft} {vs : List Json} (hd : Draft.ExactItems items)
    (hvs : ofDrafts? depth items = some vs)
    (hchildren : ∀ t w a c rest, items = t :: w :: a :: c :: rest → ∀ v, ofDraft? depth c = some v →
      Alike AgreesList (childrenIn depth c) (childrenOf v)) :
    Alike Agrees (ofPositions depth true items) (ofJson (.array vs)) := by
  -- one case for each number of fields that may be left out
  match items, hvs with
  | [], hvs =>
    cases hvs
    exact .error _ _
  | [t], hvs =>
    obtain ⟨t', _, ht, hnil, rfl⟩ := ofDrafts?_cons hvs
    cases hnil
    rw [ofPositions, ofJson]
    refine (alike_string (holds_of_ofDraft? ht)).bind ?_
    rintro s _ rfl
    exact .ok (agrees_leaf agrees_empty)
  | [t, w], hvs =>
    obtain ⟨t', _, ht, hr, rfl⟩ := ofDrafts?_cons hvs
    obtain ⟨w', _, hw, hnil, rfl⟩ := ofDrafts?_cons hr
    cases hnil
    rw [ofPositions, ofJson]
    exact alike_leading ht hw fun s o => .ok (agrees_leaf agrees_empty)
  | [t, w, a], hvs =>
    obtain ⟨t', _, ht, hr, rfl⟩ := ofDrafts?_cons hvs
    obtain ⟨w', _, hw, hr', rfl⟩ := ofDrafts?_cons hr
    obtain ⟨a', _, ha, hnil, rfl⟩ := ofDrafts?_cons hr'
    cases hnil
    rw [Draft.ExactItems, Draft.ExactItems, Draft.ExactItems] at hd
    have hattributes := alike_attributes hd.2.2.1 (holds_of_ofDraft? ha)
    rw [ofPositions, ofJson]
    exact alike_leading ht hw fun s o => hattributes.bind fun b b' hb => .ok (agrees_leaf hb)
  | t :: w :: a :: c :: rest, hvs =>
    obtain ⟨t', _, ht, hr, rfl⟩ := ofDrafts?_cons hvs
    obtain ⟨w', _, hw, hr', rfl⟩ := ofDrafts?_cons hr
    obtain ⟨a', _, ha, hr'', rfl⟩ := ofDrafts?_cons hr'
    obtain ⟨c', rest', hc, hrest, rfl⟩ := ofDrafts?_cons hr''
    rw [Draft.ExactItems, Draft.ExactItems, Draft.ExactItems] at hd
    have hattributes := alike_attributes hd.2.2.1 (holds_of_ofDraft? ha)
    rw [ofPositions, ofJson_positions, isEmpty_of_ofDrafts? hrest]
    refine alike_leading ht hw fun s o => hattributes.bind fun b b' hb => ?_
    refine (hchildren t w a c rest rfl c' hc).bind fun d d' hd' => ?_
    -- what follows the fourth field is refused by both
    cases rest'.isEmpty with
    | true => exact .ok (by rw [Agrees]; exact ⟨rfl, rfl, hb, hd'⟩)
    | false => exact .error _ _

end

mutual

/-- **A draft without repeated fields is read like its value.** -/
theorem alike_ofDraft (depth : Nat) : (d : Draft) → {v : Json} → d.Exact →
    ofDraft? depth d = some v → ¬Within RepeatsField depth d →
    Alike Agrees (ofDraft depth d) (ofJson v)
  | .object ms closed, v, hd, hv, hno => by
    cases holds_of_ofDraft? hv with
    | @object _ es hdepth hes =>
      rw [Draft.Exact] at hd
      have hchildren : ∀ c ∈ membersChildren ms, ¬Within RepeatsField (depth - 1 - 1) c :=
        fun c hc hw => hno (.child hc hw)
      have hcount : ∀ k ∈ fieldNames, (ms.map Prod.fst).count (some k) ≤ 1 := fun k hk =>
        Nat.le_of_not_lt fun hlt => hno (.here ⟨k, hk, hlt⟩)
      have hmembers := alike_ofDraftMembers (depth - 1) ms hd hes hchildren _ _ Parts.agrees_none
        (free_none hcount)
      rw [ofDraft, if_neg (by omega), ofJson]
      refine (hmembers.congr_right (ofMembers_sortMembers ?_)).bind fun p q hpq => hpq.finish
      intro k hk
      rw [← count_of_ofDraftMembers? hes]
      exact hcount k hk
  | .array items closed, v, hd, hv, hno => by
    cases holds_of_ofDraft? hv with
    | @array _ vs hdepth hvs =>
      rw [Draft.Exact] at hd
      rw [ofDraft, if_neg (by omega)]
      exact alike_positions hd hvs fun t w a c rest heq v hc =>
        alike_childrenOfEach (depth - 1) items hd c (by simp [heq]) hc fun x hx hw =>
          hno (.child (by rw [heq]; exact hx) hw)
  | .null, v, hd, hv, hno => by cases hv; exact .error _ _
  | .bool b, v, hd, hv, hno => by cases hv; exact .error _ _
  | .number n, v, hd, hv, hno => by cases holds_of_ofDraft? hv; exact .error _ _
  | .string s, v, hd, hv, hno => by cases holds_of_ofDraft? hv; exact .error _ _
  | .broken, v, hd, hv, hno => by cases hv

theorem alike_ofDraftMembers (depth : Nat) : (ms : List (Option String × Draft)) →
    {es : List (String × Json)} → Draft.ExactMembers ms → ofDraftMembers? depth ms = some es →
    (∀ c ∈ membersChildren ms, ¬Within RepeatsField (depth - 1) c) → ∀ p q : Parts, p.Agrees q →
    Free p ms → Alike Parts.Agrees (ofDraftMembers depth ms p) (ofMembers es q)
  | [], es, _, hes, _, p, q, hpq, _ => by
    cases hes
    exact .ok hpq
  | (k, d) :: r, es, hd, hes, hno, p, q, hpq, hfree => by
    obtain ⟨l, v, rs, rfl, hv, hrs, rfl⟩ := ofDraftMembers?_cons hes
    rw [Draft.ExactMembers] at hd
    have hholds := holds_of_ofDraft? hv
    have hchildren : ∀ c ∈ membersChildren r, ¬Within RepeatsField (depth - 1) c := fun c hc => by
      obtain ⟨e, he, hc⟩ := mem_membersChildren.1 hc
      exact hno c (mem_membersChildren.2 ⟨e, List.mem_cons_of_mem _ he, hc⟩)
    -- the induction is on the members, with the fields read so far as its state
    have hrest := alike_ofDraftMembers depth r hd.2 hrs hchildren
    by_cases hl : l ∈ fieldNames
    · obtain ⟨hhas, hnext⟩ := free_cons hfree hl
      simp only [fieldNames, List.mem_cons, List.not_mem_nil, or_false] at hl
      rcases hl with rfl | rfl | rfl | rfl
      · have hset : p.tag.isSome = false := hhas
        rw [ofDraftMembers_tag, ofMembers_tag, hset]
        refine (alike_string hholds).bind fun t u htu => hrest _ _ ?_ (hnext _ fun l hl => ?_)
        · exact ⟨congrArg some htu, hpq.value, hpq.attributes, hpq.children⟩
        · simp [Parts.has, hl]
      · have hset : p.value.isSome = false := hhas
        rw [ofDraftMembers_value, ofMembers_value, hset]
        refine (alike_optional hholds).bind fun t u htu => hrest _ _ ?_ (hnext _ fun l hl => ?_)
        · exact ⟨hpq.tag, congrArg some htu, hpq.attributes, hpq.children⟩
        · simp [Parts.has, hl]
      · have hset : p.attributes.isSome = false := hhas
        rw [ofDraftMembers_attributes, ofMembers_attributes, hset]
        refine (alike_attributes hd.1 hholds).bind fun a b hab => hrest _ _ ?_
          (hnext _ fun l hl => ?_)
        · exact ⟨hpq.tag, hpq.value, .some hab, hpq.children⟩
        · simp [Parts.has, hl]
      · have hset : p.children.isSome = false := hhas
        rw [ofDraftMembers_children, ofMembers_children, hset]
        refine (alike_childrenIn depth d hd.1 hv fun c hc => hno c ?_).bind fun a b hab =>
          hrest _ _ ?_ (hnext _ fun l hl => ?_)
        · exact mem_membersChildren.2 ⟨d, List.mem_cons_self, hc⟩
        · exact ⟨hpq.tag, hpq.value, hpq.attributes, .some hab⟩
        · simp [Parts.has, hl]
    · rw [ofDraftMembers_other hl, ofMembers_other v rs q hl, if_pos (isWhole_of_ofDraft? d hv)]
      exact hrest p q hpq (free_other hfree)

theorem alike_childrenIn (depth : Nat) : (d : Draft) → {v : Json} → d.Exact →
    ofDraft? depth d = some v → (∀ c ∈ itemsOf d, ¬Within RepeatsField (depth - 1) c) →
    Alike AgreesList (childrenIn depth d) (childrenOf v)
  | .array items closed, v, hd, hv, hno => by
    cases holds_of_ofDraft? hv with
    | @array _ vs hdepth hvs =>
      rw [Draft.Exact] at hd
      have hread : childrenIn depth (.array items true) = ofDrafts (depth - 1) items := by
        rw [childrenIn, if_neg (by omega)]
        exact bind_pure _
      rw [hread, childrenOf]
      exact alike_ofDrafts (depth - 1) items hd hvs hno
  | .null, v, hd, hv, hno => by cases hv; exact .error _ _
  | .bool b, v, hd, hv, hno => by cases hv; exact .error _ _
  | .number n, v, hd, hv, hno => by cases holds_of_ofDraft? hv; exact .error _ _
  | .string s, v, hd, hv, hno => by cases holds_of_ofDraft? hv; exact .error _ _
  | .object ms closed, v, hd, hv, hno => by cases holds_of_ofDraft? hv; exact .error _ _
  | .broken, v, hd, hv, hno => by cases hv

theorem alike_childrenOfEach (depth : Nat) : (ds : List Draft) → Draft.ExactItems ds →
    ∀ d ∈ ds, ∀ {v : Json}, ofDraft? depth d = some v →
    (∀ c ∈ itemsOf d, ¬Within RepeatsField (depth - 1) c) →
    Alike AgreesList (childrenIn depth d) (childrenOf v)
  | [], _, _, h, _, _, _ => by cases h
  | e :: r, hd, d, h, v, hv, hno => by
    rw [Draft.ExactItems] at hd
    by_cases hde : d = e
    · rw [hde] at hv hno ⊢
      exact alike_childrenIn depth e hd.1 hv hno
    · exact alike_childrenOfEach depth r hd.2 d (List.mem_of_ne_of_mem hde h) hv hno

theorem alike_ofDrafts (depth : Nat) : (ds : List Draft) → {vs : List Json} →
    Draft.ExactItems ds → ofDrafts? depth ds = some vs →
    (∀ d ∈ ds, ¬Within RepeatsField depth d) → Alike AgreesList (ofDrafts depth ds) (ofItems vs)
  | [], vs, _, hvs, _ => by
    cases hvs
    exact .ok (by rw [AgreesList]; trivial)
  | d :: r, vs, hd, hvs, hno => by
    rw [Draft.ExactItems] at hd
    obtain ⟨v, ws, hv, hws, rfl⟩ := ofDrafts?_cons hvs
    rw [ofDrafts, ofItems]
    exact (alike_ofDraft depth d hd.1 hv (hno d (by simp))).bind fun a b hab =>
      (alike_ofDrafts depth r hd.2 hws fun c hc => hno c (by simp [hc])).bind
        fun as bs habs => .ok (by rw [AgreesList]; exact ⟨hab, habs⟩)

end

end Scaffold.Record
