import Scaffold.Proofs.Yaml.Scan
import Scaffold.Yaml.Draft

/-!
# JSON text as a YAML document

Compact JSON text of strings, arrays and objects is a YAML text in which every collection is in
brackets and every scalar in double quotes. It is scanned as the tokens of the value
(`tokens_chars`) and read as its tree (`Document.read_compact`), if YAML reads the strings as they
are.
-/

namespace Scaffold.Json

open Yaml (Token Quotable)
open Yaml.Scan (IsKey Scans)

mutual

/-- **A value of strings that YAML reads as they are.** -/
def Readable : Json → Prop
  | .string s => Quotable s.toList
  | .array items => ReadableItems items
  | .object members => ReadableMembers members
  | _ => False

def ReadableItems : List Json → Prop
  | [] => True
  | v :: r => Readable v ∧ ReadableItems r

def ReadableMembers : List (String × Json) → Prop
  | [] => True
  | (k, v) :: r => IsKey k ∧ Readable v ∧ ReadableMembers r

end

mutual

/-- The tokens of such a value. -/
def yamlTokens : Json → List Token
  | .string s => [.scalar .other s]
  | .array items => .flowSequenceStart :: (itemTokens items ++ [.flowSequenceEnd])
  | .object members => .flowMappingStart :: (memberTokens members ++ [.flowMappingEnd])
  | _ => []

def itemTokens : List Json → List Token
  | [] => []
  | [v] => yamlTokens v
  | v :: r => yamlTokens v ++ .comma :: itemTokens r

def memberTokens : List (String × Json) → List Token
  | [] => []
  | [(k, v)] => .key :: .scalar .other k :: .value :: yamlTokens v
  | (k, v) :: r => .key :: .scalar .other k :: .value :: (yamlTokens v ++ .comma :: memberTokens r)

end

mutual

/-- The tree of such a value. -/
def yamlDraft : Json → Yaml.Draft
  | .string s => .scalar .none .other s
  | .array items => .sequence .none (itemDrafts items) true
  | .object members => .mapping .none (memberDrafts members) true
  | _ => .broken

def itemDrafts : List Json → List Yaml.Draft
  | [] => []
  | v :: r => yamlDraft v :: itemDrafts r

def memberDrafts : List (String × Json) → List (Yaml.Draft × Yaml.Draft)
  | [] => []
  | (k, v) :: r => (.scalar .none .other k, yamlDraft v) :: memberDrafts r

end

/-! ### Tokens -/

mutual

theorem scans_chars : (v : Json) → v.Readable → ∀ a, Scans v.chars v.yamlTokens a false
  | .string s, h, a => by
    rw [Readable] at h
    rw [chars, yamlTokens]
    exact Yaml.Scan.scans_quote h a
  | .array [], _, a => by
    rw [chars, yamlTokens, itemChars, itemTokens]
    exact Yaml.Scan.scans_bracket (Yaml.Scan.scans_nil true) (.inl ⟨rfl, rfl⟩) (.inl ⟨rfl, rfl⟩) a
  | .array (v :: r), h, a => by
    rw [Readable] at h
    rw [chars, yamlTokens]
    exact Yaml.Scan.scans_bracket (scans_itemChars (v :: r) (by simp) h) (.inl ⟨rfl, rfl⟩)
      (.inl ⟨rfl, rfl⟩) a
  | .object [], _, a => by
    rw [chars, yamlTokens, memberChars, memberTokens]
    exact Yaml.Scan.scans_bracket (Yaml.Scan.scans_nil true) (.inr ⟨rfl, rfl⟩) (.inr ⟨rfl, rfl⟩) a
  | .object (e :: r), h, a => by
    rw [Readable] at h
    rw [chars, yamlTokens]
    exact Yaml.Scan.scans_bracket (scans_memberChars (e :: r) (by simp) h) (.inr ⟨rfl, rfl⟩)
      (.inr ⟨rfl, rfl⟩) a
  | .null, h, _ => absurd h (by simp [Readable])
  | .bool _, h, _ => absurd h (by simp [Readable])
  | .number _, h, _ => absurd h (by simp [Readable])

theorem scans_itemChars : (vs : List Json) → vs ≠ [] → ReadableItems vs →
    Scans (itemChars vs) (itemTokens vs) true false
  | [], hne, _ => absurd rfl hne
  | [v], _, h => by
    rw [ReadableItems] at h
    rw [itemChars, itemTokens]
    exact scans_chars v h.1 true
  | v :: w :: r, _, h => by
    rw [ReadableItems] at h
    rw [itemChars, itemTokens]
    · exact (scans_chars v h.1 true).append
        ((Yaml.Scan.scans_comma false).append (scans_itemChars (w :: r) (by simp) h.2))
    all_goals simp

theorem scans_memberChars : (ms : List (String × Json)) → ms ≠ [] → ReadableMembers ms →
    Scans (memberChars ms) (memberTokens ms) true false
  | [], hne, _ => absurd rfl hne
  | [(k, v)], _, h => by
    rw [ReadableMembers] at h
    have hpair := (Yaml.Scan.scans_key h.1).append (scans_chars v h.2.1 false)
    rw [List.append_assoc] at hpair
    rw [memberChars, memberTokens]
    exact hpair
  | (k, v) :: e :: r, _, h => by
    rw [ReadableMembers] at h
    have hpair := (Yaml.Scan.scans_key h.1).append ((scans_chars v h.2.1 false).append
      ((Yaml.Scan.scans_comma false).append (scans_memberChars (e :: r) (by simp) h.2.2)))
    rw [List.append_assoc] at hpair
    rw [memberChars, memberTokens]
    · exact hpair
    all_goals simp

end

/-! ### Characters -/

/-- What may stand in a YAML text as one character. -/
def Legible (c : Char) : Prop := Yaml.isPrintable c = true ∧ c ≠ '\r'

instance (c : Char) : Decidable (Legible c) :=
  inferInstanceAs (Decidable (Yaml.isPrintable c = true ∧ c ≠ '\r'))

theorem legible_control : ∀ n < 0x20,
    (escapeChar (Char.ofNat n)).all (fun c => decide (Legible c)) = true := by decide

theorem legible_quote {s : String} (h : Quotable s.toList) : ∀ c ∈ quote s, Legible c := by
  have hescape : ∀ d ∈ s.toList, ∀ c ∈ escapeChar d, Legible c := by
    intro d hd c hc
    rcases Yaml.escapeChar_cases d with ⟨hplain, hlow, -, -⟩ | ⟨rfl | rfl | hlow, -⟩
    · rw [hplain, List.mem_singleton] at hc
      subst hc
      exact ⟨h.printable c hd hlow, (Yaml.ne_lineEnd hlow).2⟩
    · exact List.all_iff_forall_prop.1 (by decide) c hc
    · exact List.all_iff_forall_prop.1 (by decide) c hc
    · rw [← Char.ofNat_toNat d] at hc
      exact List.all_iff_forall_prop.1 (legible_control d.toNat hlow) c hc
  intro c hc
  rw [quote, List.mem_cons, List.mem_append, List.mem_flatMap, List.mem_singleton] at hc
  rcases hc with rfl | ⟨d, hd, hc⟩ | rfl
  · exact ⟨by decide, by decide⟩
  · exact hescape d hd c hc
  · exact ⟨by decide, by decide⟩

theorem legible_mark {c : Char} (h : Yaml.Scan.isMark c = true) : Legible c := by
  rcases Yaml.Scan.isMark_cases h with rfl | rfl | rfl | rfl | rfl | rfl | rfl <;>
    exact ⟨by decide, by decide⟩

mutual

theorem legible_chars : (v : Json) → v.Readable → ∀ c ∈ v.chars, Legible c
  | .string s, h => by
    rw [Readable] at h
    rw [chars]
    exact legible_quote h
  | .array items, h => by
    rw [Readable] at h
    rw [chars, List.forall_mem_cons, List.forall_mem_append, List.forall_mem_singleton]
    exact ⟨legible_mark rfl, legible_itemChars items h, legible_mark rfl⟩
  | .object members, h => by
    rw [Readable] at h
    rw [chars, List.forall_mem_cons, List.forall_mem_append, List.forall_mem_singleton]
    exact ⟨legible_mark rfl, legible_memberChars members h, legible_mark rfl⟩
  | .null, h => absurd h (by simp [Readable])
  | .bool _, h => absurd h (by simp [Readable])
  | .number _, h => absurd h (by simp [Readable])

theorem legible_itemChars : (vs : List Json) → ReadableItems vs → ∀ c ∈ itemChars vs, Legible c
  | [], _ => by simp [itemChars]
  | [v], h => by
    rw [ReadableItems] at h
    rw [itemChars]
    exact legible_chars v h.1
  | v :: w :: r, h => by
    rw [ReadableItems] at h
    rw [itemChars, List.forall_mem_append, List.forall_mem_cons]
    · exact ⟨legible_chars v h.1, legible_mark rfl, legible_itemChars (w :: r) h.2⟩
    · simp

theorem legible_memberChars : (ms : List (String × Json)) → ReadableMembers ms →
    ∀ c ∈ memberChars ms, Legible c
  | [], _ => by simp [memberChars]
  | [(k, v)], h => by
    rw [ReadableMembers] at h
    rw [memberChars, List.forall_mem_append, List.forall_mem_cons]
    exact ⟨legible_quote h.1.quotable, legible_mark rfl, legible_chars v h.2.1⟩
  | (k, v) :: e :: r, h => by
    rw [ReadableMembers] at h
    rw [memberChars, List.forall_mem_append, List.forall_mem_cons, List.forall_mem_append,
      List.forall_mem_cons]
    · exact ⟨legible_quote h.1.quotable, legible_mark rfl, legible_chars v h.2.1, legible_mark rfl,
        legible_memberChars (e :: r) h.2.2⟩
    · simp

end

/-- **The tokens of a whole text.** -/
theorem tokens_chars {members : List (String × Json)} (h : (object members).Readable) :
    Yaml.tokens (Yaml.placeFrom 0 0 0 (object members).chars) =
      (object members).yamlTokens ++ [.streamEnd] := by
  have hlegible := legible_chars _ h
  have hlength := Yaml.length_placeFrom (i := 0) (l := 0) (k := 0)
    fun hr => (hlegible '\r' hr).2 rfl
  obtain ⟨t, ht⟩ : ∃ t, Yaml.Scan.Reaches
      (Yaml.Scan.start (Yaml.placeFrom 0 0 0 (object members).chars)) (object members).yamlTokens
      false [] (object members).chars.length t := by
    have hrest : ∀ cs, Yaml.placeFrom 0 0 0 cs = Yaml.placeFrom 0 0 0 (cs ++ []) := fun cs => by
      rw [List.append_nil]
    cases members with
    | nil =>
      rw [chars, yamlTokens]
      exact Yaml.Scan.exists_reaches_bracket (Yaml.Scan.scans_nil true) (.inr ⟨rfl, rfl⟩)
        (.inr ⟨rfl, rfl⟩) 0 0 0 [] Yaml.Scan.flows_start (hrest _)
    | cons e r =>
      rw [Readable] at h
      rw [chars, yamlTokens]
      exact Yaml.Scan.exists_reaches_bracket (scans_memberChars (e :: r) (by simp) h)
        (.inr ⟨rfl, rfl⟩) (.inr ⟨rfl, rfl⟩) 0 0 0 [] Yaml.Scan.flows_start (hrest _)
  obtain ⟨m, hm, hgoes⟩ := ht.goes
  obtain ⟨fuel, hfuel⟩ : ∃ fuel, (object members).chars.length + 2 = fuel + 1 + m :=
    ⟨(object members).chars.length + 1 - m, by omega⟩
  obtain ⟨i, l, k, hrest⟩ := ht.rest
  rw [Yaml.tokens, hlength, hfuel, hgoes,
    Yaml.Scan.run_of_end ht.flows (List.eq_nil_of_length_eq_zero ht.outer) hrest, ht.tokens]
  simp [Yaml.Scan.start]

end Scaffold.Json
