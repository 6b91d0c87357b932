import Scaffold.Json.Draft
import Scaffold.Proofs.Json.Numeral
import Scaffold.Proofs.Json.Proper

/-!
# Values of drafts

The value of a draft, and so every value that is read from a text, is in canonical form
(`canonical_of_ofDraft?`, `canonical_of_read?`).
-/

namespace Scaffold

namespace Draft

/-! ### Numbers in drafts -/

mutual

/-- Every number in the draft is the same as itself. -/
def Exact : Draft → Prop
  | .number n => ∀ x, n = some x → x.same x = true
  | .array items _ => ExactItems items
  | .object members _ => ExactMembers members
  | _ => True

def ExactItems : List Draft → Prop
  | [] => True
  | d :: r => Exact d ∧ ExactItems r

def ExactMembers : List (Option String × Draft) → Prop
  | [] => True
  | (_, d) :: r => Exact d ∧ ExactMembers r

end

theorem exact_numeral (negative : Bool) (cs : List Char) : (numeral negative cs).1.Exact := by
  rw [numeral]
  split
  · rw [Exact]
    exact fun x hx => Numeral.same_value? hx
  · trivial

mutual

/-- **Only such numbers are read from a text.** -/
theorem exact_value : (fuel : Nat) → (cs : List Char) → (value fuel cs).1.Exact
  | 0, _ => by
    rw [value]
    trivial
  | fuel + 1, cs => by
    unfold value
    split
    · trivial
    · trivial
    · trivial
    · exact exact_numeral _ _
    · split <;> trivial
    · split
      · trivial
      · rw [Exact]
        exact exact_items fuel _
    · split
      · trivial
      · rw [Exact]
        exact exact_members fuel _
    · exact exact_numeral _ _

theorem exact_items : (fuel : Nat) → (cs : List Char) → ExactItems (items fuel cs).1
  | 0, _ => by
    rw [items]
    trivial
  | fuel + 1, cs => by
    have hv := exact_value fuel cs
    have hone : ∀ d, d.Exact → ExactItems [d] := fun d hd => ⟨hd, trivial⟩
    unfold items
    split
    next d heq => exact hone d (by rwa [heq] at hv)
    next d r heq =>
      rw [heq] at hv
      split
      · exact hone d hv
      · split
        · exact hone d hv
        · exact ⟨hv, exact_items fuel _⟩
      · exact hone d hv

theorem exact_members : (fuel : Nat) → (cs : List Char) → ExactMembers (members fuel cs).1
  | 0, _ => by
    rw [members]
    trivial
  | fuel + 1, cs => by
    have hone : ∀ k d, d.Exact → ExactMembers [(k, d)] := fun k d hd => ⟨hd, trivial⟩
    unfold members
    split
    · split
      · trivial
      next k r _ =>
        split
        next r _ =>
          have hv := exact_value fuel (skip r)
          split
          next d heq => exact hone k d (by rwa [heq] at hv)
          next d r heq =>
            rw [heq] at hv
            split
            · exact hone k d hv
            · exact ⟨hv, exact_members fuel _⟩
            · exact hone k d hv
        · exact hone k .broken trivial
    · trivial

end

theorem exact_ofChars (cs : List Char) : (ofChars cs).1.Exact := by
  have hv := exact_value (cs.length + 1) (skip cs)
  rw [ofChars]
  split
  next heq => rwa [heq] at hv
  next heq => rwa [heq] at hv

end Draft

namespace Json

theorem ofDrafts?_cons {depth : Nat} {d : Draft} {r : List Draft} {vs : List Json}
    (h : ofDrafts? depth (d :: r) = some vs) :
    ∃ v ws, ofDraft? depth d = some v ∧ ofDrafts? depth r = some ws ∧ vs = v :: ws := by
  rw [ofDrafts?] at h
  obtain ⟨v, hv, h⟩ := Option.bind_eq_some_iff.1 h
  obtain ⟨ws, hws, h⟩ := Option.bind_eq_some_iff.1 h
  exact ⟨v, ws, hv, hws, (Option.some.inj h).symm⟩

theorem ofDraftMembers?_cons {depth : Nat} {k : Option String} {d : Draft}
    {r : List (Option String × Draft)} {ms : List (String × Json)}
    (h : ofDraftMembers? depth ((k, d) :: r) = some ms) : ∃ l v ns, k = some l ∧
      ofDraft? depth d = some v ∧ ofDraftMembers? depth r = some ns ∧ ms = (l, v) :: ns := by
  rw [ofDraftMembers?] at h
  obtain ⟨l, hl, h⟩ := Option.bind_eq_some_iff.1 h
  obtain ⟨v, hv, h⟩ := Option.bind_eq_some_iff.1 h
  obtain ⟨ns, hns, h⟩ := Option.bind_eq_some_iff.1 h
  exact ⟨l, v, ns, hl, hv, hns, (Option.some.inj h).symm⟩

/-- Sorting members adds none. -/
theorem mem_of_mem_sortMembers {ms : List (String × Json)} {e : String × Json}
    (h : e ∈ sortMembers ms) : e ∈ ms := by
  suffices hacc : ∀ acc, e ∈ ms.foldl (fun acc e => Entries.put e.1 e.2 acc) acc →
      e ∈ acc ∨ e ∈ ms by
    exact (hacc [] h).resolve_left List.not_mem_nil
  clear h
  induction ms with
  | nil => exact fun acc h => .inl h
  | cons f r ih =>
    intro acc h
    rcases ih _ h with h | h
    · rcases Entries.eq_or_mem_of_mem_put h with rfl | h
      · exact .inr List.mem_cons_self
      · exact .inl h
    · exact .inr (List.mem_cons_of_mem _ h)

mutual

/-- **The value of a draft is in canonical form.** -/
theorem canonical_of_ofDraft? {depth : Nat} : (d : Draft) → {v : Json} →
    ofDraft? depth d = some v → v.canonical = v
  | .null, _, h => by cases h; simp [canonical]
  | .bool b, _, h => by cases h; simp [canonical]
  | .number n, _, h => by
    rw [ofDraft?] at h
    obtain ⟨x, -, rfl⟩ := Option.map_eq_some_iff.1 h
    simp [canonical]
  | .string s, _, h => by
    rw [ofDraft?] at h
    obtain ⟨x, -, rfl⟩ := Option.map_eq_some_iff.1 h
    simp [canonical]
  | .array items closed, _, h => by
    rw [ofDraft?] at h
    split_ifs at h
    obtain ⟨vs, hvs, rfl⟩ := Option.map_eq_some_iff.1 h
    exact canonical_array_iff.2 (canonical_of_ofDrafts? items hvs)
  | .object members closed, _, h => by
    rw [ofDraft?] at h
    split_ifs at h
    obtain ⟨ms, hms, rfl⟩ := Option.map_eq_some_iff.1 h
    exact canonical_object_iff.2 ⟨increasing_sortMembers ms, fun e he =>
      canonical_of_ofDraftMembers? members hms e (mem_of_mem_sortMembers he)⟩
  | .broken, _, h => by cases h

theorem canonical_of_ofDrafts? {depth : Nat} : (ds : List Draft) → {vs : List Json} →
    ofDrafts? depth ds = some vs → ∀ v ∈ vs, v.canonical = v
  | [], _, h => by cases h; simp
  | d :: r, _, h => by
    obtain ⟨v, vs, hv, hvs, rfl⟩ := ofDrafts?_cons h
    rw [List.forall_mem_cons]
    exact ⟨canonical_of_ofDraft? d hv, canonical_of_ofDrafts? r hvs⟩

theorem canonical_of_ofDraftMembers? {depth : Nat} : (ds : List (Option String × Draft)) →
    {ms : List (String × Json)} → ofDraftMembers? depth ds = some ms →
    ∀ e ∈ ms, e.2.canonical = e.2
  | [], _, h => by cases h; simp
  | (k, d) :: r, _, h => by
    obtain ⟨k, v, ms, -, hv, hms, rfl⟩ := ofDraftMembers?_cons h
    rw [List.forall_mem_cons]
    exact ⟨canonical_of_ofDraft? d hv, canonical_of_ofDraftMembers? r hms⟩

end

mutual

/-- **A draft that has a value could be read to its end.** -/
theorem isWhole_of_ofDraft? {depth : Nat} : (d : Draft) → {v : Json} →
    ofDraft? depth d = some v → d.isWhole = true
  | .null, _, _ => rfl
  | .bool _, _, _ => rfl
  | .number _, _, _ => rfl
  | .string _, _, _ => rfl
  | .array items closed, _, h => by
    rw [ofDraft?] at h
    split_ifs at h with hd
    obtain ⟨vs, hvs, rfl⟩ := Option.map_eq_some_iff.1 h
    rw [Draft.isWhole, areWhole_of_ofDrafts? items hvs]
    simpa using (not_or.1 hd).2
  | .object members closed, _, h => by
    rw [ofDraft?] at h
    split_ifs at h with hd
    obtain ⟨ms, hms, rfl⟩ := Option.map_eq_some_iff.1 h
    rw [Draft.isWhole, membersAreWhole_of_ofDraftMembers? members hms]
    simpa using (not_or.1 hd).2
  | .broken, _, h => by cases h

theorem areWhole_of_ofDrafts? {depth : Nat} : (ds : List Draft) → {vs : List Json} →
    ofDrafts? depth ds = some vs → Draft.areWhole ds = true
  | [], _, _ => rfl
  | d :: r, _, h => by
    obtain ⟨v, vs, hv, hvs, rfl⟩ := ofDrafts?_cons h
    rw [Draft.areWhole, isWhole_of_ofDraft? d hv, areWhole_of_ofDrafts? r hvs, Bool.and_true]

theorem membersAreWhole_of_ofDraftMembers? {depth : Nat} : (ds : List (Option String × Draft)) →
    {ms : List (String × Json)} → ofDraftMembers? depth ds = some ms →
    Draft.membersAreWhole ds = true
  | [], _, _ => rfl
  | (k, d) :: r, _, h => by
    obtain ⟨k, v, ms, -, hv, hms, rfl⟩ := ofDraftMembers?_cons h
    rw [Draft.membersAreWhole, isWhole_of_ofDraft? d hv,
      membersAreWhole_of_ofDraftMembers? r hms, Bool.and_true]

end

/-! ### Values and themselves -/

theorem sameItems_of_forall {vs : List Json} (h : ∀ v ∈ vs, v.same v = true) :
    sameItems vs vs = true := by
  induction vs with
  | nil => rfl
  | cons v r ih =>
    rw [List.forall_mem_cons] at h
    rw [sameItems, h.1, ih h.2, Bool.and_true]

theorem sameMembers_of_forall {ms : List (String × Json)} (h : ∀ e ∈ ms, e.2.same e.2 = true) :
    sameMembers ms ms = true := by
  induction ms with
  | nil => rfl
  | cons e r ih =>
    rw [List.forall_mem_cons] at h
    rw [sameMembers, h.1, ih h.2, beq_self_eq_true, Bool.and_true, Bool.and_true]

mutual

/-- **The value of an exact draft is the same as itself.** -/
theorem same_of_ofDraft? {depth : Nat} : (d : Draft) → {v : Json} → d.Exact →
    ofDraft? depth d = some v → v.same v = true
  | .null, _, _, h => by cases h; rfl
  | .bool b, _, _, h => by cases h; simp [same]
  | .number n, _, hd, h => by
    rw [ofDraft?] at h
    obtain ⟨x, rfl, rfl⟩ := Option.map_eq_some_iff.1 h
    rw [Draft.Exact] at hd
    rw [same]
    exact hd x rfl
  | .string s, _, _, h => by
    rw [ofDraft?] at h
    obtain ⟨x, -, rfl⟩ := Option.map_eq_some_iff.1 h
    simp [same]
  | .array items closed, _, hd, h => by
    rw [ofDraft?] at h
    split_ifs at h
    obtain ⟨vs, hvs, rfl⟩ := Option.map_eq_some_iff.1 h
    rw [Draft.Exact] at hd
    rw [same]
    exact sameItems_of_forall (same_of_ofDrafts? items hd hvs)
  | .object members closed, _, hd, h => by
    rw [ofDraft?] at h
    split_ifs at h
    obtain ⟨ms, hms, rfl⟩ := Option.map_eq_some_iff.1 h
    rw [Draft.Exact] at hd
    rw [same]
    exact sameMembers_of_forall fun e he =>
      same_of_ofDraftMembers? members hd hms e (mem_of_mem_sortMembers he)
  | .broken, _, _, h => by cases h

theorem same_of_ofDrafts? {depth : Nat} : (ds : List Draft) → {vs : List Json} →
    Draft.ExactItems ds → ofDrafts? depth ds = some vs → ∀ v ∈ vs, v.same v = true
  | [], _, _, h => by cases h; simp
  | d :: r, _, hd, h => by
    rw [Draft.ExactItems] at hd
    obtain ⟨v, vs, hv, hvs, rfl⟩ := ofDrafts?_cons h
    rw [List.forall_mem_cons]
    exact ⟨same_of_ofDraft? d hd.1 hv, same_of_ofDrafts? r hd.2 hvs⟩

theorem same_of_ofDraftMembers? {depth : Nat} : (ds : List (Option String × Draft)) →
    {ms : List (String × Json)} → Draft.ExactMembers ds → ofDraftMembers? depth ds = some ms →
    ∀ e ∈ ms, e.2.same e.2 = true
  | [], _, _, h => by cases h; simp
  | (k, d) :: r, _, hd, h => by
    rw [Draft.ExactMembers] at hd
    obtain ⟨k, v, ms, -, hv, hms, rfl⟩ := ofDraftMembers?_cons h
    rw [List.forall_mem_cons]
    exact ⟨same_of_ofDraft? d hd.1 hv, same_of_ofDraftMembers? r hd.2 hms⟩

end

/-- **Values that are read are in canonical form.** -/
theorem canonical_of_read? {text : String} {v : Json} (h : read? text = some v) :
    v.canonical = v := by
  rw [read?] at h
  split at h
  · exact canonical_of_ofDraft? _ h
  · cases h

end Json

end Scaffold
