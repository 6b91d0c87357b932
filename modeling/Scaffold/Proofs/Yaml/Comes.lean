import Scaffold.Proofs.Yaml.Gives

/-!
# Decodings that follow aliases

What a decoding comes to when every alias stands for its tree at once (`Document.resolve?`). A decoding that
follows no alias twice has room for all of them, since every alias is a mark of the document: so it never
fails because there are too many (`Comes`).
-/

namespace Scaffold.Yaml

/-! ### Trees that aliases stand for -/

namespace Document

/-- The tree itself, or the one that an alias stands for. -/
def resolve? (doc : Document) : Draft → Option Draft
  | .reference a => doc.target? a
  | d => some d

/-- No anchor of the document is that of an alias. -/
def AnchorsTrees (doc : Document) : Prop := ∀ p ∈ doc.anchored, ∀ a, p.2 ≠ .reference a

/-- No alias stands for another one. -/
theorem resolve?_ne_reference {doc : Document} {d t : Draft} (hdoc : doc.AnchorsTrees)
    (h : doc.resolve? d = some t) (a : Nat) : t ≠ .reference a := by
  cases d with
  | reference n =>
    rw [resolve?, target?] at h
    have hmem : (n, t) ∈ doc.anchored := by
      obtain ⟨l₁, l₂, hl, -⟩ := List.lookup_eq_some_iff.1 h
      exact List.mem_reverse.1 (hl ▸ by simp)
    exact hdoc _ hmem a
  | scalar mk style x => cases h; exact (nomatch ·)
  | sequence mk items closed => cases h; exact (nomatch ·)
  | mapping mk pairs closed => cases h; exact (nomatch ·)
  | broken => cases h; exact (nomatch ·)

/-- A document in which something is written knows the anchors and the marks of its tree. -/
theorem read_of_root {text : String} {d : Draft} (h : (read text).root = some d) :
    (read text).anchored = d.anchored ∧ (read text).size = d.size := by
  have hbroken : broken.root = some d → broken.anchored = d.anchored ∧ broken.size = d.size := by
    intro h
    cases h
    exact ⟨rfl, rfl⟩
  have hreading : ∀ r, (ofReading r).root = some d →
      (ofReading r).anchored = d.anchored ∧ (ofReading r).size = d.size := by
    intro r h
    cases h
    exact ⟨rfl, rfl⟩
  revert h
  rw [read]
  split
  next r _ =>
    rw [ofTokens.eq_def]
    split
    · exact (nomatch ·)
    · split
      · exact hreading _
      · exact hbroken
    · split
      · exact hreading _
      · exact hbroken
    · exact hreading _
  next => exact hbroken

end Document

namespace Draft

theorem ownAnchor_ne_reference {d : Draft} {p : Nat × Draft} (hp : p ∈ d.ownAnchor) (a : Nat) :
    p.2 ≠ .reference a := by
  intro h
  unfold ownAnchor at hp
  split at hp
  next n hanchor =>
    obtain rfl := List.mem_singleton.1 hp
    -- an alias has no anchor
    rw [show d = .reference a from h] at hanchor
    cases hanchor
  next => cases hp

mutual

theorem anchored_ne_reference : (d : Draft) → ∀ p ∈ d.anchored, ∀ a, p.2 ≠ .reference a
  | .scalar mk style x, p, hp => ownAnchor_ne_reference (d := .scalar mk style x) hp
  | .reference n, p, hp => ownAnchor_ne_reference (d := .reference n) hp
  | .broken, p, hp => ownAnchor_ne_reference (d := .broken) hp
  | .sequence mk items closed, p, hp => by
    rw [anchored] at hp
    rcases List.mem_append.1 hp with hp | hp
    · exact ownAnchor_ne_reference hp
    · exact anchoredOfList_ne_reference items p hp
  | .mapping mk pairs closed, p, hp => by
    rw [anchored] at hp
    rcases List.mem_append.1 hp with hp | hp
    · exact ownAnchor_ne_reference hp
    · exact anchoredOfPairs_ne_reference pairs p hp

theorem anchoredOfList_ne_reference : (ds : List Draft) → ∀ p ∈ anchoredOfList ds, ∀ a, p.2 ≠ .reference a
  | [], p, hp => by cases hp
  | d :: r, p, hp => by
    rw [anchoredOfList] at hp
    rcases List.mem_append.1 hp with hp | hp
    · exact anchored_ne_reference d p hp
    · exact anchoredOfList_ne_reference r p hp

theorem anchoredOfPairs_ne_reference : (ps : List (Draft × Draft)) →
    ∀ p ∈ anchoredOfPairs ps, ∀ a, p.2 ≠ .reference a
  | [], p, hp => by cases hp
  | (k, v) :: r, p, hp => by
    rw [anchoredOfPairs] at hp
    rcases List.mem_append.1 hp with hp | hp
    · rcases List.mem_append.1 hp with hp | hp
      · exact anchored_ne_reference k p hp
      · exact anchored_ne_reference v p hp
    · exact anchoredOfPairs_ne_reference r p hp

end

/-! ### What scalars say -/

def text? : Draft → Option String
  | .scalar _ _ x => some x
  | _ => none

def bool? : Draft → Option Bool
  | .scalar mk style x =>
    if style = .plain ∨ (style = .literal ∧ mk.tag = some (Literal.standardTag "bool")) then
      Literal.bool? x
    else none
  | _ => none

/-- The text of a scalar, unless it is null. -/
def optionalText? : Draft → Option (Option String)
  | .scalar mk .plain x =>
    if mk.tag = none then some (if x = "" ∨ Literal.isNull x then none else some x)
    else if mk.tag = some (Literal.standardTag "null") then
      if Literal.isNull x then some none else none
    else some (some x)
  | .scalar _ _ x => some (some x)
  | _ => none

end Draft

theorem Document.anchorsTrees_read {text : String} {d : Draft} (h : (Document.read text).root = some d) :
    (Document.read text).AnchorsTrees := by
  intro p hp
  rw [(read_of_root h).1] at hp
  exact Draft.anchored_ne_reference d p hp

/-! ### What decodings come to -/

/-- **What a decoding comes to** in a document, a value or a fault, as long as there is room for `k` aliases,
which is the most that it follows. -/
def Comes {α : Type} (doc : Document) (m : Decoding α) (k : Nat) (o : Option α) : Prop :=
  ∀ n, n + k ≤ doc.size → match o with
    | some a => ∃ n', n' ≤ n + k ∧ m doc n = .ok (a, n')
    | none => ∃ t, m doc n = .error t

namespace Comes

variable {α β : Type} {doc : Document} {m : Decoding α} {f : α → Decoding β} {a : α} {o : Option α}
  {g : α → Option β} {k l : Nat} {d : Draft} {expected path : String}

theorem of_gives (h : Gives m a) : Comes doc m 0 (some a) := fun n _ => ⟨n, le_rfl, h doc n⟩

theorem of_fails (h : Fails m) : Comes doc m 0 none := fun n _ => h doc n

theorem mono (h : Comes doc m k o) (hkl : k ≤ l) : Comes doc m l o := by
  intro n hn
  have hroom : n + k ≤ doc.size := by omega
  have hcomes := h n hroom
  cases o with
  | none => exact hcomes
  | some a =>
    obtain ⟨n', hn', hm⟩ := hcomes
    exact ⟨n', by omega, hm⟩

/-- What follows a decoding has the room that is left. -/
theorem bind (hm : Comes doc m k o) (hf : ∀ a, o = some a → Comes doc (f a) l (g a)) :
    Comes doc (m >>= f) (k + l) (o.bind g) := by
  intro n hn
  have hfirst := hm n (by omega)
  cases o with
  | none =>
    obtain ⟨t, ht⟩ := hfirst
    exact ⟨t, by rw [Decoding.bind_apply, ht]⟩
  | some a =>
    obtain ⟨n', hn', hm'⟩ := hfirst
    have hrest := hf a rfl n' (by omega)
    have hbind : (m >>= f) doc n = f a doc n' := by rw [Decoding.bind_apply, hm']
    rw [Option.bind_some, hbind]
    cases hg : g a with
    | none =>
      rw [hg] at hrest
      exact hrest
    | some b =>
      rw [hg] at hrest
      obtain ⟨n'', hn'', hf'⟩ := hrest
      exact ⟨n'', by omega, hf'⟩

theorem map (hm : Comes doc m k o) (h : α → β) : Comes doc (do pure (h (← m))) k (o.map h) := by
  have hpure : ∀ a, o = some a → Comes doc (Pure.pure (h a) : Decoding β) 0 (some (h a)) :=
    fun a _ => of_gives (.pure (h a))
  rw [Option.map_eq_bind]
  exact hm.bind hpure

theorem located (path : String) (h : Comes doc m k o) : Comes doc (Decoding.located path m) k o := by
  intro n hn
  have hcomes := h n hn
  cases o with
  | none =>
    obtain ⟨t, ht⟩ := hcomes
    exact ⟨_, by rw [Decoding.located, ht]⟩
  | some a =>
    obtain ⟨n', hn', hm⟩ := hcomes
    exact ⟨n', hn', by rw [Decoding.located, hm]⟩

/-- An alias is a mark of the document, so there is room for it. -/
theorem follow (d : Draft) : Comes doc (Decoding.follow d) d.size (doc.resolve? d) := by
  cases d with
  | reference a =>
    intro n hn
    have hroom : ¬ Decoding.aliasLimit * doc.size ≤ n := by
      rw [Draft.size] at hn
      rw [Decoding.aliasLimit]
      omega
    rw [Document.resolve?]
    simp only [Decoding.follow, if_neg hroom]
    cases doc.target? a with
    | none => exact ⟨_, rfl⟩
    | some t => exact ⟨n + 1, le_rfl, rfl⟩
  | scalar mk style x => exact (of_gives fun _ _ => rfl).mono (Nat.zero_le _)
  | sequence mk items closed => exact (of_gives fun _ _ => rfl).mono (Nat.zero_le _)
  | mapping mk pairs closed => exact (of_gives fun _ _ => rfl).mono (Nat.zero_le _)
  | broken => exact (of_gives fun _ _ => rfl).mono (Nat.zero_le _)

/-- What is read of a tree after the aliases have been followed. -/
theorem behind_follow {f : Draft → Decoding β} {g : Draft → Option β} (hdoc : doc.AnchorsTrees)
    (hf : ∀ t, (∀ a, t ≠ .reference a) → Comes doc (f t) 0 (g t)) (d : Draft) :
    Comes doc (Decoding.follow d >>= f) d.size ((doc.resolve? d).bind g) := by
  exact (follow d).bind (l := 0) fun t ht => hf t (Document.resolve?_ne_reference hdoc ht)

theorem string_of_ne (h : ∀ a, d ≠ .reference a) :
    Comes doc (Decoding.string expected path d) 0 d.text? := by
  cases d with
  | reference a => exact absurd rfl (h a)
  | scalar mk style x => exact of_gives (.string expected path mk style x)
  | sequence mk items closed =>
    exact of_fails ((Fails.after (Gives.follow_sequence mk items closed) (.fail _)).located path)
  | mapping mk pairs closed =>
    exact of_fails ((Fails.after (Gives.follow_mapping mk pairs closed) (.fail _)).located path)
  | broken => exact of_fails fun _ _ => ⟨_, rfl⟩

/-- **Any scalar is read as its text.** -/
theorem string (hdoc : doc.AnchorsTrees) (expected path : String) (d : Draft) :
    Comes doc (Decoding.string expected path d) d.size ((doc.resolve? d).bind Draft.text?) := by
  refine (behind_follow hdoc (fun t ht => ?_) d).located path
  cases t with
  | reference a => exact absurd rfl (ht a)
  | scalar mk style x => exact of_gives (.pure x)
  | sequence mk items closed => exact of_fails (.fail _)
  | mapping mk pairs closed => exact of_fails (.fail _)
  | broken => exact of_fails (.fail _)

theorem bool (hdoc : doc.AnchorsTrees) (path : String) (d : Draft) :
    Comes doc (Decoding.bool path d) d.size ((doc.resolve? d).bind Draft.bool?) := by
  refine (behind_follow hdoc (fun t ht => ?_) d).located path
  cases t with
  | reference a => exact absurd rfl (ht a)
  | scalar mk style x =>
    rw [Draft.bool?]
    simp only
    split
    next b hb => rw [hb]; exact of_gives (.pure b)
    next hb => rw [hb]; exact of_fails (.fail _)
  | sequence mk items closed => exact of_fails (.fail _)
  | mapping mk pairs closed => exact of_fails (.fail _)
  | broken => exact of_fails (.fail _)

theorem optionalString (hdoc : doc.AnchorsTrees) (expected path : String) (d : Draft) :
    Comes doc (Decoding.optionalString expected path d) d.size
      ((doc.resolve? d).bind Draft.optionalText?) := by
  refine behind_follow hdoc (fun t ht => ?_) d
  have htext : Comes doc (some <$> Decoding.string expected path t) 0 (t.text?.map some) :=
    (string_of_ne ht).map some
  cases t with
  | reference a => exact absurd rfl (ht a)
  | scalar mk style x =>
    cases style with
    | plain =>
      rw [Draft.optionalText?]
      obtain ⟨anchor, _ | tag⟩ := mk
      · simp only [if_pos]
        split_ifs
        · exact of_gives (.pure none)
        · exact htext
      · simp only [reduceCtorEq, if_false, Option.some.injEq]
        split_ifs
        · exact of_gives (.pure none)
        · exact of_fails (.fail _)
        · exact htext
    | literal => exact htext
    | other => exact htext
  | sequence mk items closed => exact htext
  | mapping mk pairs closed => exact htext
  | broken => exact of_fails (.fail _)

/-- **A whole text is read** if what its root is read as comes to a value. -/
theorem run_eq_ok {text : String} {m : Option Draft → Decoding α}
    (h : Comes (Document.read text) (m (Document.read text).root) k o)
    (hroom : k ≤ (Document.read text).size) :
    Decoding.run m text = .ok a ↔ (Document.read text).whole = true ∧ o = some a := by
  have hcomes := h 0 (by omega)
  rw [Decoding.run]
  cases o with
  | none =>
    obtain ⟨t, ht⟩ := hcomes
    simp only [ht, reduceCtorEq, and_false]
  | some b =>
    obtain ⟨n, -, hm⟩ := hcomes
    simp only [hm, Option.some.injEq]
    split_ifs with hwhole <;> simp [hwhole]

end Comes

end Scaffold.Yaml
