import Scaffold.Proofs.Tree.Alike

/-!
# Tree documents that are read without their value

What is read from a text repeats no field (`ofDraft_ne_ok`), and the text has a value unless a field
without one is skipped in it (`exists_ofDraft?`, `ofDraft?_eq_none`).
-/

namespace Scaffold.Record

open Json

/-! ### A draft that is read -/

section

variable {depth : Nat} {p q : Parts} {d c : Draft} {r : Record} {rs : List Record}
  {ms : List (Option String × Draft)} {items : List Draft} {closed : Bool}

/-- What has been read of a member. -/
inductive ReadsField (depth : Nat) : Option String → Draft → Prop
  | tag {d : Draft} {t : String} : stringIn d = .ok t → ReadsField depth (some "tag") d
  | value {d : Draft} {v : Option String} : optionalIn d = .ok v →
      ReadsField depth (some "value") d
  | attributes {d : Draft} {a : Attributes} : attributesIn depth d = .ok a →
      ReadsField depth (some "attributes") d
  | children {d : Draft} {rs : List Record} : childrenIn depth d = .ok rs →
      ReadsField depth (some "children") d
  | other {k : String} {d : Draft} : k ∉ fieldNames → d.isWhole = true →
      ReadsField depth (some k) d

theorem ReadsField.of_children {k : Option String} (h : ReadsField depth k d)
    (hk : k = some "children") : ∃ rs, childrenIn depth d = .ok rs := by
  cases h with
  | children hrs => exact ⟨_, hrs⟩
  | other hno _ => exact absurd (Option.some.inj hk ▸ hno) (by decide)
  | _ => simp at hk

/-- What has been read of fields by position. -/
inductive ReadsPositions (depth : Nat) : List Draft → Prop
  | tag {t : Draft} {s : String} : stringIn t = .ok s → ReadsPositions depth [t]
  | value {t w : Draft} {s : String} {v : Option String} : stringIn t = .ok s →
      optionalIn w = .ok v → ReadsPositions depth [t, w]
  | attributes {t w x : Draft} {s : String} {v : Option String} {a : Attributes} :
      stringIn t = .ok s → optionalIn w = .ok v → attributesIn depth x = .ok a →
      ReadsPositions depth [t, w, x]
  | children {t w x c : Draft} {s : String} {v : Option String} {a : Attributes}
      {rs : List Record} : stringIn t = .ok s → optionalIn w = .ok v →
      attributesIn depth x = .ok a → childrenIn depth c = .ok rs →
      ReadsPositions depth [t, w, x, c]

theorem free_of_free {k : String} {r : List (Option String × Draft)} (hk : p.has k = false)
    (hq : q.has k = true) (h : ∀ l, l ≠ k → q.has l = p.has l) (hr : Free q r) :
    Free p ((some k, d) :: r) := by
  intro l hl
  have hl' := hr l hl
  rw [List.map_cons, List.count_cons]
  by_cases hkl : l = k
  · subst hkl
    rw [hq] at hl'
    simp only [hk, Bool.toNat_false, Bool.toNat_true, beq_self_eq_true, if_true] at hl' ⊢
    omega
  · have hne : ((some k : Option String) == some l) = false := by simpa using Ne.symm hkl
    rw [hne, ← h l hkl]
    simpa using hl'

/-- What is read when a field was not there yet. -/
theorem exists_of_unset {α : Type} {b : Bool} {f : Decode.Fault} {x : Except Decode.Fault α}
    {g : α → Except Decode.Fault Parts}
    (h : (if b then Except.error f else x >>= g) = .ok q) :
    b = false ∧ ∃ a, x = .ok a ∧ g a = .ok q := by
  split_ifs at h with hb
  exact ⟨by simpa using hb, exists_of_bind_eq_ok h⟩

/-- Reading one of the four fields: it was not there, it is there afterwards, and the others stay. -/
theorem exists_next {k : String} (hk : k ∈ fieldNames)
    (h : ofDraftMembers depth ((some k, d) :: ms) p = .ok q) :
    ∃ p', ofDraftMembers depth ms p' = .ok q ∧ p.has k = false ∧ p'.has k = true ∧
      (∀ l, l ≠ k → p'.has l = p.has l) ∧ ReadsField depth (some k) d := by
  simp only [fieldNames, List.mem_cons, List.not_mem_nil, or_false] at hk
  rcases hk with rfl | rfl | rfl | rfl
  · rw [ofDraftMembers_tag] at h
    obtain ⟨hset, x, hx, h⟩ := exists_of_unset h
    exact ⟨_, h, hset, rfl, fun l hl => by simp [Parts.has, hl], .tag hx⟩
  · rw [ofDraftMembers_value] at h
    obtain ⟨hset, x, hx, h⟩ := exists_of_unset h
    exact ⟨_, h, hset, rfl, fun l hl => by simp [Parts.has, hl], .value hx⟩
  · rw [ofDraftMembers_attributes] at h
    obtain ⟨hset, x, hx, h⟩ := exists_of_unset h
    exact ⟨_, h, hset, rfl, fun l hl => by simp [Parts.has, hl], .attributes hx⟩
  · rw [ofDraftMembers_children] at h
    obtain ⟨hset, x, hx, h⟩ := exists_of_unset h
    exact ⟨_, h, hset, rfl, fun l hl => by simp [Parts.has, hl], .children hx⟩

/-- **Each field is read once.** -/
theorem free_of_ofDraftMembers (h : ofDraftMembers depth ms p = .ok q) :
    Free p ms ∧ ∀ e ∈ ms, ReadsField depth e.1 e.2 := by
  induction ms generalizing p with
  | nil =>
    refine ⟨fun k _ => ?_, by simp⟩
    simpa using Bool.toNat_le (p.has k)
  | cons e r ih =>
    obtain ⟨_ | k, d⟩ := e
    · cases h
    rw [List.forall_mem_cons]
    by_cases hk : k ∈ fieldNames
    · obtain ⟨p', hr, hnew, hset, hsame, hread⟩ := exists_next hk h
      obtain ⟨hfree, hothers⟩ := ih hr
      exact ⟨free_of_free hnew hset hsame hfree, hread, hothers⟩
    · rw [ofDraftMembers_other hk] at h
      split_ifs at h with hwhole
      obtain ⟨hfree, hr⟩ := ih h
      refine ⟨fun l hl => ?_, .other hk hwhole, hr⟩
      have hne : ((some k : Option String) == some l) = false := by
        rw [beq_eq_false_iff_ne, Ne, Option.some.injEq]
        exact fun hkl => hk (hkl ▸ hl)
      rw [List.map_cons, List.count_cons, hne]
      simpa using hfree l hl

theorem readsPositions_of_ofPositions (h : ofPositions depth closed items = .ok r) :
    closed = true ∧ ReadsPositions depth items := by
  match items, h with
  | [], h => cases h
  | [t], h =>
    obtain ⟨s, hs, h⟩ := exists_of_bind_eq_ok h
    split_ifs at h with hclosed
    exact ⟨hclosed, .tag hs⟩
  | [t, w], h =>
    obtain ⟨s, hs, h⟩ := exists_of_bind_eq_ok h
    obtain ⟨v, hv, h⟩ := exists_of_bind_eq_ok h
    split_ifs at h with hclosed
    exact ⟨hclosed, .value hs hv⟩
  | [t, w, x], h =>
    obtain ⟨s, hs, h⟩ := exists_of_bind_eq_ok h
    obtain ⟨v, hv, h⟩ := exists_of_bind_eq_ok h
    obtain ⟨a, ha, h⟩ := exists_of_bind_eq_ok h
    split_ifs at h with hclosed
    exact ⟨hclosed, .attributes hs hv ha⟩
  | t :: w :: x :: c :: rest, h =>
    rw [ofPositions] at h
    obtain ⟨s, hs, h⟩ := exists_of_bind_eq_ok h
    obtain ⟨v, hv, h⟩ := exists_of_bind_eq_ok h
    obtain ⟨a, ha, h⟩ := exists_of_bind_eq_ok h
    obtain ⟨rs, hrs, h⟩ := exists_of_bind_eq_ok h
    split_ifs at h with hclosed
    rw [Bool.and_eq_true, List.isEmpty_iff] at hclosed
    obtain ⟨hclosed, rfl⟩ := hclosed
    exact ⟨hclosed, .children hs hv ha hrs⟩

/-- What is read as a record is a closed object of fields or a closed array of positions. -/
theorem ofDraft_cases (h : ofDraft depth d = .ok r) : 1 < depth ∧
    ((∃ ms, d = .object ms true ∧ Free Parts.none ms ∧ ∀ e ∈ ms, ReadsField (depth - 1) e.1 e.2) ∨
      ∃ items, d = .array items true ∧ ReadsPositions (depth - 1) items) := by
  cases d with
  | object ms closed =>
    rw [ofDraft] at h
    split_ifs at h with hdepth hclosed
    · obtain ⟨p, hp, -⟩ := exists_of_bind_eq_ok h
      exact ⟨by omega, .inl ⟨ms, by rw [hclosed], free_of_ofDraftMembers hp⟩⟩
    · obtain ⟨p, -, h⟩ := exists_of_bind_eq_ok h
      cases h
  | array items closed =>
    rw [ofDraft] at h
    split_ifs at h with hdepth
    obtain ⟨rfl, hitems⟩ := readsPositions_of_ofPositions h
    exact ⟨by omega, .inr ⟨items, rfl, hitems⟩⟩
  | _ => cases h

theorem childrenIn_cases (h : childrenIn depth d = .ok rs) :
    1 < depth ∧ ∃ items, d = .array items true ∧ ofDrafts (depth - 1) items = .ok rs := by
  cases d with
  | array items closed =>
    rw [childrenIn] at h
    split_ifs at h with hdepth hclosed
    · obtain ⟨ns, hns, h⟩ := exists_of_bind_eq_ok h
      cases h
      exact ⟨by omega, items, by rw [hclosed], hns⟩
    · obtain ⟨ns, -, h⟩ := exists_of_bind_eq_ok h
      cases h
  | _ => cases h

theorem exists_of_ofDrafts {ds : List Draft} (h : ofDrafts depth ds = .ok rs) :
    ∀ d ∈ ds, ∃ r, ofDraft depth d = .ok r := by
  induction ds generalizing rs with
  | nil => simp
  | cons d ds ih =>
    rw [ofDrafts] at h
    obtain ⟨r, hr, h⟩ := exists_of_bind_eq_ok h
    obtain ⟨rs, hrs, h⟩ := exists_of_bind_eq_ok h
    exact List.forall_mem_cons.2 ⟨⟨r, hr⟩, ih hrs⟩

theorem exists_of_childrenIn (h : childrenIn depth d = .ok rs) (hc : c ∈ itemsOf d) :
    ∃ r, ofDraft (depth - 1) c = .ok r := by
  obtain ⟨-, items, rfl, hitems⟩ := childrenIn_cases h
  exact exists_of_ofDrafts hitems c hc

/-- **The children of what is read are read.** -/
theorem exists_of_mem_childDrafts (h : ofDraft depth d = .ok r) (hc : c ∈ childDrafts d) :
    ∃ s, ofDraft (depth - 2) c = .ok s := by
  obtain ⟨-, ⟨ms, rfl, -, hms⟩ | ⟨items, rfl, hitems⟩⟩ := ofDraft_cases h
  · obtain ⟨e, he, hc⟩ := mem_membersChildren.1 hc
    obtain ⟨rs, hrs⟩ := (hms _ he).of_children rfl
    exact exists_of_childrenIn hrs hc
  · cases hitems with
    | children _ _ _ hrs => exact exists_of_childrenIn hrs hc
    | _ => cases hc

/-- **A record with a repeated field in it is not read.** -/
theorem ofDraft_ne_ok (h : Within RepeatsField depth d) (r : Record) : ofDraft depth d ≠ .ok r := by
  induction h generalizing r with
  | here hrepeats =>
    intro hr
    obtain ⟨-, ⟨ms, heq, hfree, -⟩ | ⟨items, heq, -⟩⟩ := ofDraft_cases hr
    · obtain ⟨k, hk, hcount⟩ := hrepeats
      cases heq
      have hone := hfree k hk
      omega
    · cases heq
  | child hc _ ih =>
    intro hr
    obtain ⟨s, hs⟩ := exists_of_mem_childDrafts hr hc
    exact ih s hs

/-! ### A draft that is read and has no value -/

theorem exists_value_of_stringIn {s : String} (h : stringIn d = .ok s) :
    ∃ v, ofDraft? depth d = some v := by
  cases d with
  | string s =>
    cases s with
    | none => cases h
    | some s => exact ⟨_, rfl⟩
  | _ => cases h

theorem exists_value_of_optionalIn {o : Option String} (h : optionalIn d = .ok o) :
    ∃ v, ofDraft? depth d = some v := by
  cases d with
  | null => exact ⟨_, rfl⟩
  | string s =>
    cases s with
    | none => cases h
    | some s => exact ⟨_, rfl⟩
  | _ => cases h

theorem ofDraftMembers?_of_entriesIn {es : List (String × Json)} (h : entriesIn depth ms = .ok es) :
    ofDraftMembers? depth ms = some es := by
  induction ms generalizing es with
  | nil => cases h; rfl
  | cons e r ih =>
    obtain ⟨_ | k, d⟩ := e
    · cases h
    rw [entriesIn] at h
    split at h
    next v hv =>
      obtain ⟨rs, hrs, h⟩ := exists_of_bind_eq_ok h
      cases h
      rw [ofDraftMembers?, hv, ih hrs]
      rfl
    · cases h

theorem exists_value_of_attributesIn {a : Attributes} (h : attributesIn depth d = .ok a) :
    ∃ v, ofDraft? depth d = some v := by
  cases d with
  | object ms closed =>
    rw [attributesIn] at h
    split_ifs at h with hdepth hclosed
    · obtain ⟨es, hes, -⟩ := exists_of_bind_eq_ok h
      refine ⟨.object (sortMembers es), ?_⟩
      rw [ofDraft?, if_neg (by simp [hdepth, hclosed]), ofDraftMembers?_of_entriesIn hes]
      rfl
    · obtain ⟨es, -, h⟩ := exists_of_bind_eq_ok h
      cases h
  | _ => cases h

/-- A member that is read has a value, as far as children have one and what is skipped. -/
theorem ReadsField.exists_value {k : Option String} (h : ReadsField depth k d)
    (hchildren : ∀ rs, childrenIn depth d = .ok rs → k = some "children" →
      ∃ v, ofDraft? depth d = some v)
    (hskip : ∀ l, k = some l → l ∉ fieldNames → d.isWhole = true → ofDraft? depth d ≠ none) :
    (∃ l, k = some l) ∧ ∃ v, ofDraft? depth d = some v := by
  cases h with
  | tag ht => exact ⟨⟨_, rfl⟩, exists_value_of_stringIn ht⟩
  | value hv => exact ⟨⟨_, rfl⟩, exists_value_of_optionalIn hv⟩
  | attributes ha => exact ⟨⟨_, rfl⟩, exists_value_of_attributesIn ha⟩
  | children hrs => exact ⟨⟨_, rfl⟩, hchildren _ hrs rfl⟩
  | other hk hwhole =>
    exact ⟨⟨_, rfl⟩, Option.ne_none_iff_exists'.1 (hskip _ rfl hk hwhole)⟩

theorem ReadsPositions.exists_values (h : ReadsPositions depth items)
    (hchildren : ∀ t w x c, items = [t, w, x, c] → ∀ rs, childrenIn depth c = .ok rs →
      ∃ v, ofDraft? depth c = some v) : ∃ vs, ofDrafts? depth items = some vs := by
  have hcons : ∀ {d : Draft} {r : List Draft}, (∃ v, ofDraft? depth d = some v) →
      (∃ vs, ofDrafts? depth r = some vs) → ∃ vs, ofDrafts? depth (d :: r) = some vs := by
    rintro d r ⟨v, hv⟩ ⟨vs, hvs⟩
    exact ⟨v :: vs, by rw [ofDrafts?, hv, hvs]; rfl⟩
  have hnil : ∃ vs, ofDrafts? depth [] = some vs := ⟨[], rfl⟩
  cases h with
  | tag ht => exact hcons (exists_value_of_stringIn ht) hnil
  | value ht hw =>
    exact hcons (exists_value_of_stringIn ht) (hcons (exists_value_of_optionalIn hw) hnil)
  | attributes ht hw ha =>
    exact hcons (exists_value_of_stringIn ht) (hcons (exists_value_of_optionalIn hw)
      (hcons (exists_value_of_attributesIn ha) hnil))
  | children ht hw ha hrs =>
    exact hcons (exists_value_of_stringIn ht) (hcons (exists_value_of_optionalIn hw)
      (hcons (exists_value_of_attributesIn ha) (hcons (hchildren _ _ _ _ rfl _ hrs) hnil)))

end

mutual

/-- **What is read has a value, unless something without one is skipped in it.** -/
theorem exists_ofDraft? (depth : Nat) : (d : Draft) → {r : Record} → ofDraft depth d = .ok r →
    ¬Within SkipsUnreadable depth d → ∃ v, ofDraft? depth d = some v
  | .object ms closed, r, h, hno => by
    obtain ⟨hdepth, ⟨_, heq, -, hms⟩ | ⟨_, heq, -⟩⟩ := ofDraft_cases h
    · cases heq
      obtain ⟨es, hes⟩ := exists_ofDraftMembers? (depth - 1) ms hms
        (fun k d hm hk hw hv => hno (.here ⟨k, d, hm, hk, hw, hv⟩))
        fun c hc hw => hno (.child hc hw)
      refine ⟨.object (sortMembers es), ?_⟩
      rw [ofDraft?, if_neg (by simp; omega), hes]
      rfl
    · cases heq
  | .array items closed, r, h, hno => by
    obtain ⟨hdepth, ⟨_, heq, -⟩ | ⟨_, heq, hitems⟩⟩ := ofDraft_cases h
    · cases heq
    · cases heq
      obtain ⟨vs, hvs⟩ := hitems.exists_values fun t w x c heq rs hrs =>
        exists_ofDraft?_ofEach (depth - 1) items c (by simp [heq]) hrs fun e he hw =>
          hno (.child (by rw [heq]; exact he) hw)
      refine ⟨.array vs, ?_⟩
      rw [ofDraft?, if_neg (by simp; omega), hvs]
      rfl
  | .null, _, h, _ => by cases h
  | .bool _, _, h, _ => by cases h
  | .number _, _, h, _ => by cases h
  | .string _, _, h, _ => by cases h
  | .broken, _, h, _ => by cases h

theorem exists_ofDraftMembers? (depth : Nat) : (ms : List (Option String × Draft)) →
    (∀ e ∈ ms, ReadsField depth e.1 e.2) →
    (∀ k d, (some k, d) ∈ ms → k ∉ fieldNames → d.isWhole = true → ofDraft? depth d ≠ none) →
    (∀ c ∈ membersChildren ms, ¬Within SkipsUnreadable (depth - 1) c) →
    ∃ es, ofDraftMembers? depth ms = some es
  | [], _, _, _ => ⟨[], rfl⟩
  | (k, d) :: r, hms, hskip, hno => by
    obtain ⟨hfield, hrest⟩ := List.forall_mem_cons.1 hms
    have hfield : ReadsField depth k d := hfield
    have hmem : ∀ c, (∃ e, (some "children", e) ∈ (k, d) :: r ∧ c ∈ itemsOf e) →
        ¬Within SkipsUnreadable (depth - 1) c := fun c hc => hno c (mem_membersChildren.2 hc)
    obtain ⟨es, hes⟩ := exists_ofDraftMembers? depth r hrest
      (fun l e he => hskip l e (List.mem_cons_of_mem _ he)) fun c hc => by
        obtain ⟨e, he, hc⟩ := mem_membersChildren.1 hc
        exact hmem c ⟨e, List.mem_cons_of_mem _ he, hc⟩
    obtain ⟨⟨l, rfl⟩, v, hv⟩ := hfield.exists_value
      (fun rs hrs hk => exists_ofDraft?_of_childrenIn depth d hrs fun c hc =>
        hmem c ⟨d, by rw [hk]; exact List.mem_cons_self, hc⟩)
      fun l hl => hskip l d (by rw [hl]; exact List.mem_cons_self)
    exact ⟨(l, v) :: es, by rw [ofDraftMembers?, hv, hes]; rfl⟩

theorem exists_ofDraft?_of_childrenIn (depth : Nat) : (d : Draft) → {rs : List Record} →
    childrenIn depth d = .ok rs → (∀ c ∈ itemsOf d, ¬Within SkipsUnreadable (depth - 1) c) →
    ∃ v, ofDraft? depth d = some v
  | .array items closed, rs, h, hno => by
    obtain ⟨hdepth, _, heq, hitems⟩ := childrenIn_cases h
    cases heq
    obtain ⟨vs, hvs⟩ := exists_ofDrafts? (depth - 1) items hitems hno
    refine ⟨.array vs, ?_⟩
    rw [ofDraft?, if_neg (by simp; omega), hvs]
    rfl
  | .null, _, h, _ => by cases h
  | .bool _, _, h, _ => by cases h
  | .number _, _, h, _ => by cases h
  | .string _, _, h, _ => by cases h
  | .object _ _, _, h, _ => by cases h
  | .broken, _, h, _ => by cases h

theorem exists_ofDraft?_ofEach (depth : Nat) : (items : List Draft) → ∀ d ∈ items,
    ∀ {rs : List Record}, childrenIn depth d = .ok rs →
    (∀ c ∈ itemsOf d, ¬Within SkipsUnreadable (depth - 1) c) → ∃ v, ofDraft? depth d = some v
  | [], _, h, _, _, _ => by cases h
  | e :: r, d, h, rs, hrs, hno => by
    by_cases hde : d = e
    · rw [hde] at hrs hno ⊢
      exact exists_ofDraft?_of_childrenIn depth e hrs hno
    · exact exists_ofDraft?_ofEach depth r d (List.mem_of_ne_of_mem hde h) hrs hno

theorem exists_ofDrafts? (depth : Nat) : (ds : List Draft) → {rs : List Record} →
    ofDrafts depth ds = .ok rs → (∀ d ∈ ds, ¬Within SkipsUnreadable depth d) →
    ∃ vs, ofDrafts? depth ds = some vs
  | [], _, _, _ => ⟨[], rfl⟩
  | d :: r, rs, h, hno => by
    rw [ofDrafts] at h
    obtain ⟨s, hs, h⟩ := exists_of_bind_eq_ok h
    obtain ⟨ss, hss, -⟩ := exists_of_bind_eq_ok h
    obtain ⟨v, hv⟩ := exists_ofDraft? depth d hs (hno d (by simp))
    obtain ⟨vs, hvs⟩ := exists_ofDrafts? depth r hss fun c hc => hno c (by simp [hc])
    exact ⟨v :: vs, by rw [ofDrafts?, hv, hvs]; rfl⟩

end

/-! ### A skipped field without a value -/

section

variable {depth : Nat} {d : Draft} {v : Json}

theorem exists_of_mem_ofDrafts? {ds : List Draft} {vs : List Json}
    (h : ofDrafts? depth ds = some vs) : ∀ d ∈ ds, ∃ v, ofDraft? depth d = some v := by
  induction ds generalizing vs with
  | nil => simp
  | cons d r ih =>
    obtain ⟨v, ws, hv, hws, rfl⟩ := ofDrafts?_cons h
    exact List.forall_mem_cons.2 ⟨⟨v, hv⟩, ih hws⟩

theorem exists_of_mem_ofDraftMembers? {ms : List (Option String × Draft)}
    {es : List (String × Json)} (h : ofDraftMembers? depth ms = some es) :
    ∀ e ∈ ms, ∃ v, ofDraft? depth e.2 = some v := by
  induction ms generalizing es with
  | nil => simp
  | cons e r ih =>
    obtain ⟨l, v, rs, hl, hv, hrs, rfl⟩ := ofDraftMembers?_cons h
    exact List.forall_mem_cons.2 ⟨⟨v, hv⟩, ih hrs⟩

theorem exists_of_mem_itemsOf {c : Draft} (h : ofDraft? depth d = some v) (hc : c ∈ itemsOf d) :
    ∃ w, ofDraft? (depth - 1) c = some w := by
  cases holds_of_ofDraft? h with
  | array _ hvs => exact exists_of_mem_ofDrafts? hvs c hc
  | _ => cases hc

/-- **A draft has no value if something in it is skipped that has none.** -/
theorem ofDraft?_eq_none (h : Within SkipsUnreadable depth d) : ofDraft? depth d = none := by
  induction h with
  | here hskips =>
    obtain ⟨k, e, he, -, -, hnone⟩ := hskips
    rw [Option.eq_none_iff_forall_ne_some]
    intro v hv
    cases holds_of_ofDraft? hv with
    | object _ hes =>
      obtain ⟨w, hw⟩ := exists_of_mem_ofDraftMembers? hes _ he
      rw [hnone] at hw
      cases hw
  | @child depth d c hc _ ih =>
    rw [Option.eq_none_iff_forall_ne_some]
    intro v hv
    have hvalue : ∃ w, ofDraft? (depth - 2) c = some w := by
      cases holds_of_ofDraft? hv with
      | object _ hes =>
        obtain ⟨e, he, hc⟩ := mem_membersChildren.1 hc
        obtain ⟨w, hw⟩ := exists_of_mem_ofDraftMembers? hes _ he
        exact exists_of_mem_itemsOf hw hc
      | @array items vs _ hvs =>
        match items, hc, hvs with
        | t :: w :: x :: e :: rest, hc, hvs =>
          obtain ⟨u, hu⟩ := exists_of_mem_ofDrafts? hvs e (by simp)
          exact exists_of_mem_itemsOf hu hc
      | _ => cases hc
    obtain ⟨w, hw⟩ := hvalue
    rw [ih] at hw
    cases hw

end

end Scaffold.Record
