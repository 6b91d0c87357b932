import Mathlib.Data.Bool.AllAny
import Mathlib.Data.List.TakeWhile
import Scaffold.Proofs.Markup.Item

/-!
# Written markup

The other direction of the reader. `escape` writes a text so that it has no markup in it, and
`resolve` gives the text back (`resolve_escape`). A tag is written with its attributes between
quotation marks (`tagText`), and is read as it stands (`passed_tagText`, `tagParts_tagText`).
-/

namespace Scaffold.Markup

/-! ### Escaped text -/

def escapeChar (c : Char) : List Char :=
  if c = '&' then "&amp;".toList
  else if c = '<' then "&lt;".toList
  else if c = '>' then "&gt;".toList
  else if c = '"' then "&quot;".toList
  else [c]

/-- The text with references for the characters that are markup. -/
def escape (cs : List Char) : List Char := cs.flatMap escapeChar

theorem escape_cons (c : Char) (cs : List Char) : escape (c :: cs) = escapeChar c ++ escape cs :=
  List.flatMap_cons

theorem escape_append (cs ds : List Char) : escape (cs ++ ds) = escape cs ++ escape ds :=
  List.flatMap_append

/-- A character is escaped as itself or as the reference to its entity. -/
theorem escapeChar_cases (c : Char) : (escapeChar c = [c] ∧ c ∉ ['&', '<', '>', '"']) ∨
    ∃ name, escapeChar c = '&' :: (name ++ [';']) ∧ entity? name = some c ∧
      ∀ d ∈ name, d.isAlpha = true := by
  rw [escapeChar]
  split_ifs with ha hl hg hq
  · exact .inr ⟨"amp".toList, by decide, by subst ha; decide, List.all_eq_true.1 (by decide)⟩
  · exact .inr ⟨"lt".toList, by decide, by subst hl; decide, List.all_eq_true.1 (by decide)⟩
  · exact .inr ⟨"gt".toList, by decide, by subst hg; decide, List.all_eq_true.1 (by decide)⟩
  · exact .inr ⟨"quot".toList, by decide, by subst hq; decide, List.all_eq_true.1 (by decide)⟩
  · exact .inl ⟨rfl, by simp [ha, hl, hg, hq]⟩

/-- Escaped text has no angle bracket and no quotation mark. -/
theorem not_mem_escape (cs : List Char) : ∀ c ∈ ['<', '>', '"'], c ∉ escape cs := by
  intro c hc hmem
  obtain ⟨d, -, hd⟩ := List.mem_flatMap.1 hmem
  rcases escapeChar_cases d with ⟨heq, hno⟩ | ⟨name, heq, -, halpha⟩
  · rw [heq, List.mem_singleton] at hd
    subst hd
    simp_all
  · have hall : ∀ x ∈ ['<', '>', '"'], x.isAlpha = false ∧ x ≠ '&' ∧ x ≠ ';' :=
      List.all_iff_forall_prop.1 (by decide)
    obtain ⟨hno, hamp, hsemi⟩ := hall c hc
    rw [heq] at hd
    simp only [List.mem_cons, List.mem_append, hamp, hsemi, List.not_mem_nil, or_false,
      false_or] at hd
    rw [halpha c hd] at hno
    cases hno

theorem escape_ne_nil {cs : List Char} (h : cs ≠ []) : escape cs ≠ [] := by
  obtain ⟨c, r, rfl⟩ := List.exists_cons_of_ne_nil h
  rw [escape_cons]
  rcases escapeChar_cases c with ⟨heq, -⟩ | ⟨name, heq, -⟩
  · simp [heq]
  · simp [heq]

theorem escape_eq_self {cs : List Char} (h : ∀ c ∈ cs, c ∉ ['&', '<', '>', '"']) :
    escape cs = cs := by
  induction cs with
  | nil => rfl
  | cons c r ih =>
    have hc : escapeChar c = [c] := by
      have hno := h c (by simp)
      simp only [List.mem_cons, List.not_mem_nil, or_false, not_or] at hno
      simp [escapeChar, hno]
    rw [escape_cons, hc, ih fun d hd => h d (by simp [hd])]
    rfl

theorem referenceName?_append {name r : List Char} (h : ∀ c ∈ name, c ≠ ';' ∧ c ≠ '&') :
    referenceName? (name ++ ';' :: r) = some (name, r) := by
  induction name with
  | nil => simp [referenceName?]
  | cons c cs ih =>
    have hc := h c (by simp)
    rw [List.cons_append, referenceName?, if_neg hc.1, if_neg hc.2,
      ih fun d hd => h d (by simp [hd])]
    rfl

theorem resolveFrom_escape (cs : List Char) {fuel : Nat} (h : (escape cs).length < fuel)
    (position limit : Nat) : resolveFrom fuel position limit (escape cs) = .ok cs := by
  induction cs generalizing fuel position with
  | nil =>
    obtain ⟨fuel, rfl⟩ := Nat.exists_eq_add_one_of_ne_zero (Nat.ne_zero_of_lt h)
    rfl
  | cons c r ih =>
    obtain ⟨fuel, rfl⟩ := Nat.exists_eq_add_one_of_ne_zero (Nat.ne_zero_of_lt h)
    rw [escape_cons] at h ⊢
    rcases escapeChar_cases c with ⟨heq, hno⟩ | ⟨name, heq, hentity, halpha⟩
    · rw [heq] at h ⊢
      have hamp : c ≠ '&' := fun hc => hno (by simp [hc])
      rw [List.singleton_append, resolveFrom, if_neg hamp, ih (by simp at h; omega)]
      rfl
    · have hname : ∀ d ∈ name, d ≠ ';' ∧ d ≠ '&' := by
        intro d hd
        have hdalpha := halpha d hd
        constructor <;> rintro rfl <;> cases hdalpha
      have hreferenced : ∀ position, referenced position name = .ok c := by
        intro position
        rw [referenced]
        · rw [hentity]
        · rintro digits rfl
          cases halpha '#' (by simp)
      rw [heq] at h ⊢
      rw [List.cons_append, List.append_assoc, List.singleton_append, resolveFrom, if_pos rfl,
        referenceName?_append hname]
      have hrest : (escape r).length < fuel := by simp at h; omega
      simp only [hreferenced]
      exact congrArg (fun x => x >>= fun s => .ok (c :: s)) (ih hrest _)

/-- **Escaped text is read back.** -/
theorem resolve_escape (cs : List Char) : resolve (escape cs) = .ok cs :=
  resolveFrom_escape cs (Nat.lt_succ_self _) _ _

/-! ### Tags -/

def isNameChar (c : Char) : Bool := c.isAlphanum || c ∈ ['_', '-', '.', ':']

/-- A name of letters, digits and a few other characters. -/
structure IsName (s : String) : Prop where
  ne_empty : s ≠ ""
  plain : ∀ c ∈ s.toList, isNameChar c = true

def attributeText (e : String × String) : List Char :=
  ' ' :: (e.1.toList ++ '=' :: '"' :: (escape e.2.toList ++ ['"']))

/-- A tag without its angle brackets. -/
def tagText (tag : String) (a : List (String × String)) : List Char :=
  tag.toList ++ a.flatMap attributeText

theorem isNameChar_ne {c d : Char} (hc : isNameChar c = true)
    (hd : d ∈ [' ', '\r', '\n', '\t', '=', '/', '!', '?', '<', '>', '\'', '"']) : c ≠ d := by
  have hall : ∀ x ∈ [' ', '\r', '\n', '\t', '=', '/', '!', '?', '<', '>', '\'', '"'],
      isNameChar x = false := List.all_iff_forall_prop.1 (by decide)
  rintro rfl
  rw [hall c hd] at hc
  cases hc

theorem isNameChar_not_space {c : Char} (hc : isNameChar c = true) : isSpace c = false := by
  simp [isSpace, isNameChar_ne hc]

theorem IsName.exists_cons {s : String} (h : IsName s) :
    ∃ c r, s.toList = c :: r ∧ isNameChar c = true ∧ ∀ d ∈ r, isNameChar d = true := by
  obtain ⟨c, r, hs⟩ := List.exists_cons_of_ne_nil (l := s.toList) (by simpa using h.ne_empty)
  have hplain := h.plain
  rw [hs] at hplain
  exact ⟨c, r, hs, hplain c (by simp), fun d hd => hplain d (by simp [hd])⟩

/-- The end of a tag is not within this text. -/
def Passed (cs : List Char) : Prop :=
  ∀ r, tagEnd? none (cs ++ r) = (tagEnd? none r).map fun (t, r) => (cs ++ t, r)

theorem Passed.append {cs ds : List Char} (hc : Passed cs) (hd : Passed ds) :
    Passed (cs ++ ds) := by
  intro r
  rw [List.append_assoc, hc, hd, Option.map_map]
  simp only [Function.comp_def, List.append_assoc]

theorem passed_plain {cs : List Char} (h : ∀ c ∈ cs, c ∉ ['>', '\'', '"']) : Passed cs := by
  intro r
  induction cs with
  | nil => simp
  | cons c cs ih =>
    have hc := h c (by simp)
    simp only [List.mem_cons, List.not_mem_nil, or_false, not_or] at hc
    rw [List.cons_append, tagEnd?, if_neg hc.1, if_neg (by simp [hc])]
    simp only [ih fun d hd => h d (by simp [hd]), Option.map_map]
    rfl

theorem tagEnd?_quoted {w : List Char} (h : '"' ∉ w) (r : List Char) :
    tagEnd? (some '"') (w ++ '"' :: r) =
      (tagEnd? none r).map fun (t, r) => (w ++ '"' :: t, r) := by
  induction w with
  | nil => simp [tagEnd?]
  | cons c w ih =>
    simp only [List.mem_cons, not_or] at h
    rw [List.cons_append, tagEnd?]
    simp only [if_neg (Ne.symm h.1), ih h.2, Option.map_map]
    rfl

theorem passed_quoted {w : List Char} (h : '"' ∉ w) : Passed ('"' :: (w ++ ['"'])) := by
  intro r
  rw [List.cons_append, List.append_assoc, List.singleton_append, tagEnd?, if_neg (by decide),
    if_pos (.inr rfl)]
  simp only [tagEnd?_quoted h, Option.map_map, Function.comp_def, List.cons_append,
    List.append_assoc, List.nil_append]

theorem IsName.passed {s : String} (h : IsName s) : Passed s.toList := by
  refine passed_plain fun c hc => ?_
  have hne := fun d => isNameChar_ne (d := d) (h.plain c hc)
  simp [hne]

theorem passed_attributeText {e : String × String} (h : IsName e.1) : Passed (attributeText e) := by
  have hkey : Passed (' ' :: e.1.toList) := by
    have hblank : Passed [' '] := passed_plain (List.all_iff_forall_prop.1 (by decide))
    exact hblank.append h.passed
  have hquoted := passed_quoted (not_mem_escape e.2.toList '"' (by simp))
  have hequals : Passed ['='] := passed_plain (List.all_iff_forall_prop.1 (by decide))
  have hall := (hkey.append hequals).append hquoted
  simpa [attributeText] using hall

variable {tag : String} {a : List (String × String)}

/-- **The end of a written tag is behind all of it.** -/
theorem passed_tagText (ht : IsName tag) (ha : ∀ e ∈ a, IsName e.1) : Passed (tagText tag a) := by
  rw [tagText]
  refine ht.passed.append ?_
  induction a with
  | nil => intro r; simp
  | cons e a ih =>
    rw [List.flatMap_cons]
    exact (passed_attributeText (ha e (by simp))).append (ih fun f hf => ha f (by simp [hf]))

/-- One attribute is read, if its name is new. -/
theorem attributesFrom_attributeText (tag : String) {e : String × String} (h : IsName e.1)
    {seen : List (String × Nat)} (hseen : seen.lookup e.1 = none) (fuel position : Nat)
    (r : List Char) : ∃ next start,
      attributesFrom tag (fuel + 1) position seen (attributeText e ++ r) =
        (attributesFrom tag fuel next (seen ++ [(e.1, start)]) r) >>= fun rest => .ok (e :: rest) := by
  obtain ⟨k, ks, hkey, hk, hks⟩ := h.exists_cons
  obtain ⟨name, value⟩ := e
  simp only at hkey hseen
  have hblank : isSpace k = false := isNameChar_not_space hk
  have hrest : ∀ c ∈ ks, (c != '=' && !isSpace c) = true := by
    intro c hc
    simp [isNameChar_ne (hks c hc), isNameChar_not_space (hks c hc)]
  have hvalue : ∀ c ∈ escape value.toList, (c != '"') = true := by
    intro c hc
    have hno := not_mem_escape value.toList '"' (by simp)
    simp only [bne_iff_ne]
    rintro rfl
    exact hno hc
  have htext : attributeText (name, value) ++ r =
      ' ' :: k :: (ks ++ '=' :: '"' :: (escape value.toList ++ '"' :: r)) := by
    simp [attributeText, hkey]
  have hname : String.ofList (k :: ks) = name := by rw [← hkey, String.ofList_toList]
  have hequals : isSpace '=' = false := rfl
  have hquote : isSpace '"' = false := rfl
  rw [htext, attributesFrom]
  simp only [List.dropWhile_cons, List.takeWhile_cons, show isSpace ' ' = true from rfl, hblank,
    hequals, hquote, if_true, Bool.false_eq_true, if_false, List.takeWhile_append_of_pos hrest,
    List.dropWhile_append_of_pos hrest, bne_self_eq_false, Bool.false_and, List.append_nil, hname,
    hseen, or_true, List.takeWhile_append_of_pos hvalue, List.dropWhile_append_of_pos hvalue,
    resolve_escape, String.ofList_toList]
  exact ⟨_, _, rfl⟩

theorem attributesFrom_written (hnames : ∀ e ∈ a, IsName e.1) (hd : (Entries.keys a).Nodup)
    {seen : List (String × Nat)} (hseen : ∀ k ∈ Entries.keys a, seen.lookup k = none)
    {fuel : Nat} (hfuel : a.length < fuel) (position : Nat) :
    attributesFrom tag fuel position seen (a.flatMap attributeText) = .ok a := by
  induction a generalizing seen fuel position with
  | nil =>
    obtain ⟨fuel, rfl⟩ := Nat.exists_eq_add_one_of_ne_zero (Nat.ne_zero_of_lt hfuel)
    rfl
  | cons e a ih =>
    obtain ⟨fuel, rfl⟩ := Nat.exists_eq_add_one_of_ne_zero (Nat.ne_zero_of_lt hfuel)
    rw [Entries.keys_cons, List.nodup_cons] at hd
    obtain ⟨next, start, hstep⟩ := attributesFrom_attributeText tag (hnames e (by simp))
      (hseen e.1 (by simp)) fuel position (a.flatMap attributeText)
    have hrest : ∀ k ∈ Entries.keys a, (seen ++ [(e.1, start)]).lookup k = none := by
      intro k hk
      have hne : k ≠ e.1 := by
        rintro rfl
        exact hd.1 hk
      rw [List.lookup_append, hseen k (by simp [hk])]
      rw [Option.none_or, List.lookup_cons, beq_false_of_ne hne]
      rfl
    rw [List.flatMap_cons, hstep, ih (fun f hf => hnames f (by simp [hf])) hd.2 hrest
      (by simpa using hfuel)]
    rfl

/-- **A written tag is read back.** -/
theorem tagParts_tagText (ht : IsName tag) (ha : ∀ e ∈ a, IsName e.1)
    (hd : (Entries.keys a).Nodup) : tagParts (tagText tag a) = .ok (tag, a) := by
  have hplain : ∀ c ∈ tag.toList, (!isSpace c) = true := by
    intro c hc
    rw [isNameChar_not_space (ht.plain c hc)]
    rfl
  have hstop : (a.flatMap attributeText).takeWhile (fun c => !isSpace c) = [] ∧
      (a.flatMap attributeText).dropWhile (fun c => !isSpace c) = a.flatMap attributeText := by
    cases a with
    | nil => exact ⟨rfl, rfl⟩
    | cons e a => exact ⟨rfl, rfl⟩
  have hlength : a.length ≤ (a.flatMap attributeText).length := by
    clear hstop ha hd
    induction a with
    | nil => simp
    | cons e a ih =>
      rw [List.flatMap_cons, List.length_append, List.length_cons, attributeText, List.length_cons]
      omega
  rw [tagParts, tagText]
  simp only [List.takeWhile_append_of_pos hplain, List.dropWhile_append_of_pos hplain, hstop,
    List.append_nil, String.ofList_toList]
  rw [attributesFrom_written ha hd (by simp) (by rw [List.length_append]; omega)]
  rfl

end Scaffold.Markup
