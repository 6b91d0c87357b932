import Scaffold.Proofs.Yaml.Json

/-!
# The tree of JSON text

The tokens of a JSON value are read as its tree (`nodeFrom_yamlTokens`), and its compact text as a
document with nothing else in it (`Document.read_compact`).
-/

namespace Scaffold.Yaml

open Json (Readable ReadableItems ReadableMembers yamlTokens itemTokens memberTokens yamlDraft
  itemDrafts memberDrafts)

variable {s : Supply} {r ts : List Token} {fuel : Nat} {block loose : Bool}

@[simp] theorem Supply.with_with (s : Supply) (ts us : List Token) :
    (s.with_ ts).with_ us = s.with_ us := rfl

/-- The tokens that a value begins with. -/
inductive Begins : Token → Prop
  | scalar (style : ScalarStyle) (text : String) : Begins (.scalar style text)
  | sequence : Begins .flowSequenceStart
  | mapping : Begins .flowMappingStart

theorem begins_yamlTokens (v : Json) (h : v.Readable) :
    ∃ t ts, v.yamlTokens = t :: ts ∧ Begins t := by
  cases v with
  | string s => exact ⟨_, _, by rw [yamlTokens], .scalar .other s⟩
  | array items => exact ⟨_, _, by rw [yamlTokens], .sequence⟩
  | object members => exact ⟨_, _, by rw [yamlTokens], .mapping⟩
  | _ => exact absurd h (by simp [Readable])

theorem begins_itemTokens (v : Json) (vs : List Json) (h : ReadableItems (v :: vs)) :
    ∃ t ts, itemTokens (v :: vs) = t :: ts ∧ Begins t := by
  rw [ReadableItems] at h
  obtain ⟨t, ts, hv, ht⟩ := begins_yamlTokens v h.1
  cases vs with
  | nil => exact ⟨t, ts, by rw [itemTokens, hv], ht⟩
  | cons w vs =>
    rw [itemTokens, hv]
    · exact ⟨t, _, rfl, ht⟩
    · simp

theorem begins_memberTokens (k : String) (v : Json) (ms : List (String × Json)) :
    ∃ ts, memberTokens ((k, v) :: ms) = .key :: ts := by
  cases ms with
  | nil => exact ⟨_, by rw [memberTokens]⟩
  | cons e ms =>
    rw [memberTokens]
    · exact ⟨_, rfl⟩
    · simp

/-! ### One step of a tree -/

/-- What a value begins with is no label. -/
theorem labels_of_begins {t : Token} (h : s.tokens = t :: r) (ht : Begins t) :
    s.labels = (none, none, s) := by
  rw [Supply.labels, h]
  cases ht <;> rfl

theorem nodeFrom_scalar {style : ScalarStyle} {x : String} (h : s.tokens = .scalar style x :: r) :
    nodeFrom (fuel + 1) block loose s = (.scalar .none style x, some (s.with_ r)) := by
  have hlabels := labels_of_begins h (.scalar style x)
  rw [nodeFrom, h]
  simp only [hlabels, Option.map_none, Option.join_none, Supply.register, h]
  rfl

theorem nodeFrom_sequence (h : s.tokens = .flowSequenceStart :: r) :
    nodeFrom (fuel + 1) block loose s = sequenceOf .none (flowItems fuel true (s.with_ r)) := by
  have hlabels := labels_of_begins h (.sequence)
  rw [nodeFrom, h]
  simp only [hlabels, Option.map_none, Option.join_none, Supply.register, h]
  rfl

theorem nodeFrom_mapping (h : s.tokens = .flowMappingStart :: r) :
    nodeFrom (fuel + 1) block loose s = mappingOf .none (flowPairs fuel true (s.with_ r)) := by
  have hlabels := labels_of_begins h (.mapping)
  rw [nodeFrom, h]
  simp only [hlabels, Option.map_none, Option.join_none, Supply.register, h]
  rfl

/-- A comma stands in front of every entry but the first. -/
theorem flowItems_comma {t : Token} (h : s.tokens = .comma :: t :: r) (ht : Begins t) :
    flowItems fuel false s = flowItems fuel true (s.with_ (t :: r)) := by
  cases fuel with
  | zero => rw [flowItems, flowItems]
  | succ fuel =>
    rw [flowItems, flowItems, h]
    cases ht <;> rfl

theorem flowItems_end (h : s.tokens = .flowSequenceEnd :: r) (first : Bool) :
    flowItems (fuel + 1) first s = ([], some (s.with_ r)) := by
  rw [flowItems, h]

theorem flowItems_cons {t : Token} (h : s.tokens = t :: r) (ht : Begins t) :
    flowItems (fuel + 1) true s =
      consItem (nodeFrom fuel false false s) (flowItems fuel false) := by
  have hs : s.with_ (t :: r) = s := by rw [← h]; rfl
  rw [flowItems, h]
  cases ht <;> simp [hs]

/-- A comma stands in front of every pair but the first. -/
theorem flowPairs_comma {t : Token} (h : s.tokens = .comma :: t :: r) :
    flowPairs fuel false s = flowPairs fuel true (s.with_ (t :: r)) := by
  cases fuel with
  | zero => rw [flowPairs, flowPairs]
  | succ fuel =>
    rw [flowPairs, flowPairs, h]
    cases t <;> rfl

theorem flowPairs_end (h : s.tokens = .flowMappingEnd :: r) (first : Bool) :
    flowPairs (fuel + 1) first s = ([], some (s.with_ r)) := by
  rw [flowPairs, h]

theorem flowValue_value {t : Token} (h : s.tokens = .value :: t :: r) (ht : Begins t) :
    flowValue (fuel + 1) s = nodeFrom fuel false false (s.with_ (t :: r)) := by
  rw [flowValue, h]
  cases ht <;> rfl

/-- A pair whose key is a scalar. -/
theorem flowPairs_cons {style : ScalarStyle} {x : String} {t : Token}
    (h : s.tokens = .key :: .scalar style x :: .value :: t :: r) (ht : Begins t) :
    flowPairs (fuel + 2) true s =
      consItem (pairWith (.scalar .none style x, some (s.with_ (t :: r))) (nodeFrom fuel false false))
        (flowPairs (fuel + 1) false) := by
  have hkey : unlessEnds endsFlowKey (nodeFrom (fuel + 1) false false)
      (s.with_ (.scalar style x :: .value :: t :: r)) =
        (.scalar .none style x, some (s.with_ (.value :: t :: r))) := by
    have hnode : nodeFrom (fuel + 1) false false (s.with_ (.scalar style x :: .value :: t :: r)) =
        (.scalar .none style x, some (s.with_ (.value :: t :: r))) := nodeFrom_scalar rfl
    rw [unlessEnds]
    exact hnode
  have hvalue : flowValue (fuel + 1) (s.with_ (.value :: t :: r)) =
      nodeFrom fuel false false (s.with_ (t :: r)) := flowValue_value rfl ht
  rw [flowPairs, h]
  simp only [if_true, hkey, pairWith, hvalue]

/-! ### Whole values -/

mutual

/-- **The tokens of a value are read as its tree.** -/
theorem nodeFrom_yamlTokens : (v : Json) → v.Readable → ∀ (fuel : Nat) (block loose : Bool)
    (s : Supply) (r : List Token), s.tokens = v.yamlTokens ++ r → v.yamlTokens.length ≤ fuel →
    nodeFrom fuel block loose s = (v.yamlDraft, some (s.with_ r))
  | .string x, _, fuel, block, loose, s, r, hs, hfuel => by
    rw [yamlTokens] at hs hfuel
    obtain ⟨fuel, rfl⟩ : ∃ f, fuel = f + 1 := ⟨fuel - 1, by simp at hfuel; omega⟩
    rw [yamlDraft]
    exact nodeFrom_scalar hs
  | .array vs, h, fuel, block, loose, s, r, hs, hfuel => by
    rw [Readable] at h
    rw [yamlTokens] at hs hfuel
    simp only [List.length_cons, List.length_append, List.length_nil] at hfuel
    obtain ⟨fuel, rfl⟩ : ∃ f, fuel = f + 1 := ⟨fuel - 1, by omega⟩
    rw [List.cons_append, List.append_assoc] at hs
    rw [nodeFrom_sequence hs, flowItems_itemTokens vs h fuel _ r rfl (by omega), yamlDraft]
    rfl
  | .object ms, h, fuel, block, loose, s, r, hs, hfuel => by
    rw [Readable] at h
    rw [yamlTokens] at hs hfuel
    simp only [List.length_cons, List.length_append, List.length_nil] at hfuel
    obtain ⟨fuel, rfl⟩ : ∃ f, fuel = f + 1 := ⟨fuel - 1, by omega⟩
    rw [List.cons_append, List.append_assoc] at hs
    rw [nodeFrom_mapping hs, flowPairs_memberTokens ms h fuel _ r rfl (by omega), yamlDraft]
    rfl
  | .null, h, _, _, _, _, _, _, _ => absurd h (by simp [Readable])
  | .bool _, h, _, _, _, _, _, _, _ => absurd h (by simp [Readable])
  | .number _, h, _, _, _, _, _, _, _ => absurd h (by simp [Readable])

theorem flowItems_itemTokens : (vs : List Json) → ReadableItems vs → ∀ (fuel : Nat) (s : Supply)
    (r : List Token), s.tokens = itemTokens vs ++ ([.flowSequenceEnd] ++ r) →
    (itemTokens vs).length + 1 ≤ fuel →
    flowItems fuel true s = (itemDrafts vs, some (s.with_ r))
  | [], _, fuel, s, r, hs, hfuel => by
    obtain ⟨fuel, rfl⟩ : ∃ f, fuel = f + 1 := ⟨fuel - 1, by omega⟩
    rw [itemTokens] at hs
    rw [flowItems_end hs, itemDrafts]
    rfl
  | [v], h, fuel, s, r, hs, hfuel => by
    rw [ReadableItems] at h
    rw [itemTokens] at hs hfuel
    obtain ⟨t, ts, hv, ht⟩ := begins_yamlTokens v h.1
    have hpos : 1 ≤ v.yamlTokens.length := by rw [hv]; simp
    obtain ⟨fuel, rfl⟩ : ∃ f, fuel = f + 2 := ⟨fuel - 2, by omega⟩
    have hnode := nodeFrom_yamlTokens v h.1 (fuel + 1) false false s _ hs (by omega)
    rw [hv] at hs
    rw [flowItems_cons hs ht, hnode, consItem]
    simp only
    rw [flowItems_end rfl, itemDrafts, itemDrafts]
    rfl
  | v :: w :: vs, h, fuel, s, r, hs, hfuel => by
    rw [ReadableItems] at h
    obtain ⟨t, ts, hv, ht⟩ := begins_yamlTokens v h.1
    obtain ⟨t', ts', hw, ht'⟩ := begins_itemTokens w vs h.2
    have htokens : itemTokens (v :: w :: vs) = v.yamlTokens ++ .comma :: itemTokens (w :: vs) := by
      rw [itemTokens]
      simp
    rw [htokens, List.append_assoc] at hs
    rw [htokens, List.length_append, List.length_cons] at hfuel
    have hpos : 1 ≤ v.yamlTokens.length := by rw [hv]; simp
    obtain ⟨fuel, rfl⟩ : ∃ f, fuel = f + 1 := ⟨fuel - 1, by omega⟩
    have hnode := nodeFrom_yamlTokens v h.1 fuel false false s _ hs (by omega)
    rw [hv] at hs
    -- the comma has its own step, with the fuel of the tokens before it
    have hrest : flowItems fuel false (s.with_ (.comma :: itemTokens (w :: vs) ++
        ([.flowSequenceEnd] ++ r))) = (itemDrafts (w :: vs), some (s.with_ r)) := by
      rw [flowItems_comma (by rw [hw]; rfl) ht']
      exact flowItems_itemTokens (w :: vs) h.2 fuel _ r (by rw [hw]; rfl) (by omega)
    rw [flowItems_cons hs ht, hnode, consItem]
    simp only [hrest, itemDrafts]

theorem flowPairs_memberTokens : (ms : List (String × Json)) → ReadableMembers ms → ∀ (fuel : Nat)
    (s : Supply) (r : List Token), s.tokens = memberTokens ms ++ ([.flowMappingEnd] ++ r) →
    (memberTokens ms).length + 1 ≤ fuel →
    flowPairs fuel true s = (memberDrafts ms, some (s.with_ r))
  | [], _, fuel, s, r, hs, hfuel => by
    obtain ⟨fuel, rfl⟩ : ∃ f, fuel = f + 1 := ⟨fuel - 1, by omega⟩
    rw [memberTokens] at hs
    rw [flowPairs_end hs, memberDrafts]
    rfl
  | [(k, v)], h, fuel, s, r, hs, hfuel => by
    rw [ReadableMembers] at h
    rw [memberTokens] at hs hfuel
    simp only [List.length_cons] at hfuel
    obtain ⟨t, ts, hv, ht⟩ := begins_yamlTokens v h.2.1
    obtain ⟨fuel, rfl⟩ : ∃ f, fuel = f + 2 := ⟨fuel - 2, by omega⟩
    have hnode := nodeFrom_yamlTokens v h.2.1 fuel false false
      (s.with_ (v.yamlTokens ++ ([.flowMappingEnd] ++ r))) _ rfl (by omega)
    rw [hv] at hs hnode
    simp only [List.cons_append] at hs hnode
    rw [flowPairs_cons hs ht, pairWith, hnode, consItem]
    simp only
    rw [flowPairs_end rfl, memberDrafts, memberDrafts]
    rfl
  | (k, v) :: (k', v') :: ms, h, fuel, s, r, hs, hfuel => by
    rw [ReadableMembers] at h
    obtain ⟨t, ts, hv, ht⟩ := begins_yamlTokens v h.2.1
    obtain ⟨ts', hms⟩ := begins_memberTokens k' v' ms
    have htokens : memberTokens ((k, v) :: (k', v') :: ms) = .key :: .scalar .other k :: .value ::
        (v.yamlTokens ++ .comma :: memberTokens ((k', v') :: ms)) := by
      rw [memberTokens]
      simp
    rw [htokens] at hs hfuel
    simp only [List.length_cons, List.length_append] at hfuel
    obtain ⟨fuel, rfl⟩ : ∃ f, fuel = f + 2 := ⟨fuel - 2, by omega⟩
    have hnode := nodeFrom_yamlTokens v h.2.1 fuel false false
      (s.with_ (v.yamlTokens ++ (.comma :: memberTokens ((k', v') :: ms) ++ ([.flowMappingEnd] ++ r))))
      _ rfl (by omega)
    have hrest : flowPairs (fuel + 1) false (s.with_ (.comma :: memberTokens ((k', v') :: ms) ++
        ([.flowMappingEnd] ++ r))) = (memberDrafts ((k', v') :: ms), some (s.with_ r)) := by
      rw [flowPairs_comma (by rw [hms]; rfl)]
      exact flowPairs_memberTokens ((k', v') :: ms) h.2.2 (fuel + 1) _ r (by rw [hms]; rfl) (by omega)
    rw [hv] at hs hnode
    simp only [List.cons_append, List.append_assoc] at hs hnode hrest
    rw [flowPairs_cons hs ht, pairWith, hnode, consItem]
    simp only [Supply.with_with, hrest, memberDrafts]

end

/-! ### Documents -/

/-- The marks of a whole text do not hinder it. -/
theorem place?_chars {members : List (String × Json)} (h : (Json.object members).Readable) :
    place? (Json.object members).chars = some (placeFrom 0 0 0 (Json.object members).chars) := by
  have hall : (Json.object members).chars.all isPrintable = true :=
    List.all_eq_true.2 fun c hc => (Json.legible_chars _ h c hc).1
  have hmark : ¬ '\x7b' = byteOrderMark := by decide
  rw [Json.chars] at hall ⊢
  rw [place?, if_neg hmark, if_pos hall]

theorem Document.ofTokens_mapping (ts : List Token) : ofTokens (.flowMappingStart :: ts) =
    ofReading (nodeFrom (4 * (Token.flowMappingStart :: ts).length + 4) true false
      ⟨.flowMappingStart :: ts, [], standardHandles⟩) := rfl

/-- **The compact text of a JSON object is a YAML document** that holds its tree and nothing else. -/
theorem Document.read_compact {members : List (String × Json)}
    (h : (Json.object members).Readable) :
    (Document.read (Json.object members).compact).root = some (Json.object members).yamlDraft ∧
      (Document.read (Json.object members).compact).whole = true := by
  have hread : Document.read (Json.object members).compact =
      ofTokens ((Json.object members).yamlTokens ++ [Token.streamEnd]) := by
    rw [Document.read, Json.compact, String.toList_ofList, place?_chars h]
    exact congrArg ofTokens (Json.tokens_chars h)
  obtain ⟨ts, hts⟩ : ∃ ts, (Json.object members).yamlTokens ++ [Token.streamEnd] =
      .flowMappingStart :: ts := ⟨_, by rw [yamlTokens]; rfl⟩
  have hnode := nodeFrom_yamlTokens _ h (4 * (Token.flowMappingStart :: ts).length + 4) true false
    ⟨.flowMappingStart :: ts, [], standardHandles⟩ [Token.streamEnd] hts.symm (by
      rw [← hts, List.length_append]
      omega)
  rw [hread, hts, ofTokens_mapping, hnode]
  exact ⟨rfl, rfl⟩

end Scaffold.Yaml
