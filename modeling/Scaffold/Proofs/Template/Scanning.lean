import Mathlib.Data.List.TakeWhile
import Scaffold.Template.Token

/-!
# Scanning template texts

`Scans` says which tokens are scanned from a piece of a template, wherever it stands, and in what mode
and on what line the scanner is behind it. Such pieces compose (`Scans.append`). Text without an
opening brace is one token (`scans_text`), and a text between quotation marks, written by `quote`, is
scanned as the text (`scans_quoted`).
-/

namespace Scaffold.Template

/-- The stream behind tokens that are scanned already. -/
def TokenStream.prepend (s : TokenStream) (ts : List PlacedToken) : TokenStream :=
  ⟨ts ++ s.tokens, s.fault⟩

/-- Tokens on one line. -/
def onLine (line : Nat) (ts : List Token) : List PlacedToken := ts.map (⟨·, line⟩)

namespace Scan

/-- **These tokens are scanned in at most so many steps**, and the scanner goes on with what follows
in another mode and on another line. -/
def Scans (steps : Nat) (mode : ScanMode) (line : Nat) (cs : List Char) (ts : List PlacedToken)
    (mode' : ScanMode) (line' : Nat) : Prop :=
  ∀ fuel r, steps ≤ fuel → ∃ fuel', fuel ≤ fuel' + steps ∧
    run fuel mode line (cs ++ r) = (run fuel' mode' line' r).prepend ts

variable {m n : Nat} {mode mode' mode'' : ScanMode} {line line' line'' : Nat} {cs ds : List Char}
  {ts us : List PlacedToken}

theorem Scans.append (hc : Scans m mode line cs ts mode' line')
    (hd : Scans n mode' line' ds us mode'' line'') :
    Scans (m + n) mode line (cs ++ ds) (ts ++ us) mode'' line'' := by
  intro fuel r hfuel
  obtain ⟨f, hf, hcs⟩ := hc fuel (ds ++ r) (by omega)
  obtain ⟨g, hg, hds⟩ := hd f r (by omega)
  refine ⟨g, by omega, ?_⟩
  rw [List.append_assoc, hcs, hds, TokenStream.prepend, TokenStream.prepend, TokenStream.prepend,
    List.append_assoc]

/-- What is scanned in so many steps exactly. -/
theorem scans_of_run (h : ∀ fuel r, run (fuel + n) mode line (cs ++ r) =
    (run fuel mode' line' r).prepend ts) : Scans n mode line cs ts mode' line' := by
  intro fuel r hfuel
  obtain ⟨f, rfl⟩ := Nat.exists_eq_add_of_le' hfuel
  exact ⟨f, Nat.le_refl _, h f r⟩

/-! ### Text -/

theorem opening?_of_ne {c : Char} (h : c ≠ '\x7b') (r : List Char) : opening? (c :: r) = none := by
  rw [opening?]
  all_goals
    rintro _ hc
    cases hc
    exact h rfl

theorem leadingText_append (h : '\x7b' ∉ cs) {r : List Char} (hr : (opening? r).isSome = true) :
    leadingText (cs ++ r) = cs := by
  induction cs with
  | nil =>
    cases r with
    | nil => cases hr
    | cons c r => rw [List.nil_append, leadingText, if_pos hr]
  | cons c cs ih =>
    simp only [List.mem_cons, not_or] at h
    rw [List.cons_append, leadingText, opening?_of_ne (Ne.symm h.1), ih h.2]
    rfl

theorem leadingText_self (h : '\x7b' ∉ cs) : leadingText cs = cs := by
  induction cs with
  | nil => rfl
  | cons c cs ih =>
    simp only [List.mem_cons, not_or] at h
    rw [leadingText, opening?_of_ne (Ne.symm h.1), ih h.2]
    rfl

/-- The token of a text between tags: none if it is empty. -/
def textToken (line : Nat) (s : String) : List PlacedToken :=
  if s = "" then [] else [⟨.text s, line⟩]

/-- Text in front of a tag that leaves the blanks before it. -/
theorem scans_text (line : Nat) {s : String} (hs : '\x7b' ∉ s.toList)
    (hopen : ∀ r, ∃ kind rest, opening? (ds ++ r) = some (kind, rest) ∧ (edge rest).1 ≠ .remove)
    (hd : Scans n (.text false) (line + newlines s.toList) ds us mode' line') :
    Scans (1 + n) (.text false) line (s.toList ++ ds) (textToken line s ++ us) mode' line' := by
  by_cases hempty : s = ""
  · -- there is no token for it
    subst hempty
    intro fuel r hfuel
    obtain ⟨f, hf, hrun⟩ := hd fuel r (by omega)
    exact ⟨f, by omega, hrun⟩
  · rw [textToken, if_neg hempty]
    intro fuel r hfuel
    obtain ⟨fuel, rfl⟩ := Nat.exists_eq_add_of_le hfuel
    obtain ⟨f, hf, hrun⟩ := hd (fuel + n) r (by omega)
    refine ⟨f, by omega, ?_⟩
    obtain ⟨kind, rest, hkind, hedge⟩ := hopen r
    obtain ⟨c, cs, hcs⟩ := List.exists_cons_of_ne_nil (l := s.toList) (by simpa using hempty)
    have hlead := leadingText_append hs (r := ds ++ r) (by rw [hkind]; rfl)
    have hnone : opening? (s.toList ++ (ds ++ r)) = none := by
      rw [hcs, List.cons_append]
      exact opening?_of_ne (fun hc => hs (by simp [hcs, hc])) _
    have hfull : (s.toList ++ (ds ++ r)).isEmpty = false := by rw [hcs]; rfl
    have hstep : step (.text false) line (s.toList ++ (ds ++ r)) =
        .token (.text s) (.text false) (line + newlines s.toList) (ds ++ r) := by
      have hshown : s.toList.isEmpty = false := by rw [hcs]; rfl
      rw [step, text, hnone]
      simp only [hfull, hlead, List.drop_left, hkind, trimTrailIf, if_neg hedge, hshown,
        String.ofList_toList]
      rfl
    have hnext : run (1 + n + fuel) (.text false) line (s.toList ++ (ds ++ r)) =
        (run (fuel + n) (.text false) (line + newlines s.toList) (ds ++ r)).prepend
          [⟨.text s, line⟩] := by
      rw [show 1 + n + fuel = (fuel + n) + 1 by omega, run, hstep]
      rfl
    rw [List.append_assoc, hnext, hrun, TokenStream.prepend, TokenStream.prepend]
    rfl

/-- Text up to the end. -/
theorem run_text {s : String} (hs : '\x7b' ∉ s.toList) (fuel : Nat) :
    run (fuel + 2) (.text false) line s.toList = ⟨textToken line s, none⟩ := by
  by_cases hempty : s = ""
  · subst hempty
    rfl
  · obtain ⟨c, cs, hcs⟩ := List.exists_cons_of_ne_nil (l := s.toList) (by simpa using hempty)
    have hnone : opening? s.toList = none := by
      rw [hcs]
      exact opening?_of_ne (fun hc => hs (by simp [hcs, hc])) _
    have hfull : s.toList.isEmpty = false := by rw [hcs]; rfl
    have hstep : step (.text false) line s.toList =
        .token (.text s) (.text false) (line + newlines s.toList) [] := by
      rw [step, text, hnone]
      have hshown : s.toList.isEmpty = false := hfull
      have hnil : opening? [] = none := rfl
      simp only [leadingText_self hs, List.drop_length, hnil, hshown, String.ofList_toList]
      rfl
    rw [run, hstep, textToken, if_neg hempty]
    rfl

/-! ### Quoted text -/

def quoteChar (c : Char) : List Char := if c = '"' then ['\\', '"'] else [c]

/-- A text between quotation marks. -/
def quote (s : String) : List Char := '"' :: (s.toList.flatMap quoteChar ++ ['"'])

theorem quotedBody?_quote {cs : List Char} (h : '\\' ∉ cs) (r : List Char) :
    quotedBody? '"' (cs.flatMap quoteChar ++ '"' :: r) = some (cs.flatMap quoteChar, r) := by
  induction cs with
  | nil => rfl
  | cons c cs ih =>
    simp only [List.mem_cons, not_or] at h
    rw [List.flatMap_cons, quoteChar]
    split_ifs with hc
    · rw [List.append_assoc, List.cons_append, List.singleton_append, quotedBody?, ih h.2]
      rfl
    · rw [List.append_assoc, List.singleton_append, quotedBody?, if_neg hc, if_neg (Ne.symm h.1),
        ih h.2]
      · rfl
      · rintro d ds hd
        exact absurd hd.symm h.1

theorem unescape?_quote {cs : List Char} (h : '\\' ∉ cs) :
    unescape? none (cs.flatMap quoteChar) = some cs := by
  induction cs with
  | nil => rfl
  | cons c cs ih =>
    simp only [List.mem_cons, not_or] at h
    rw [List.flatMap_cons, quoteChar]
    split_ifs with hc
    · have hescape : simpleEscape? '"' = some '"' := rfl
      rw [List.cons_append, List.singleton_append, unescape?, hescape]
      · simp [ih h.2, hc]
      · simp
    · rw [List.singleton_append, unescape?, ih h.2]
      · simp [Ne.symm h.1]
      · simp [Ne.symm h.1]
      · simp [Ne.symm h.1]

/-- **A quoted text is one token**, inside of parentheses. -/
theorem inside_quote (kind : TagKind) (depth : Nat) (cs : List Char) :
    inside kind (depth + 1) line ('"' :: cs) =
      match quotedBody? '"' cs with
      | none => .fault ⟨.form, some line⟩
      | some (body, rest) =>
        match unescape? none body with
        | none => .fault ⟨.badEscape, none⟩
        | some s => .token (.quoted (String.ofList s)) (.tag kind (depth + 1))
            (line + newlines body) rest := rfl

theorem scans_quote {s : String} (hs : '\\' ∉ s.toList) (kind : TagKind) (depth : Nat) :
    Scans 1 (.tag kind (depth + 1)) line (quote s) [⟨.quoted s, line⟩] (.tag kind (depth + 1))
      (line + newlines (s.toList.flatMap quoteChar)) := by
  refine scans_of_run fun fuel r => ?_
  have hstep : step (.tag kind (depth + 1)) line (quote s ++ r) =
      .token (.quoted s) (.tag kind (depth + 1)) (line + newlines (s.toList.flatMap quoteChar)) r := by
    have hquote : quote s ++ r = '"' :: (s.toList.flatMap quoteChar ++ '"' :: r) := by
      rw [quote, List.cons_append, List.append_assoc, List.singleton_append]
    rw [step, hquote, inside_quote, quotedBody?_quote hs]
    simp only [unescape?_quote hs, String.ofList_toList]
  rw [run, hstep]
  rfl

end Scan

/-- Only a line end is taken off. -/
theorem withoutLastLineEnd_of_last {cs : List Char}
    (h : ∀ c ∈ cs.getLast?, c ∉ ['\n', '\r']) : withoutLastLineEnd cs = cs := by
  rw [withoutLastLineEnd]
  cases hrev : cs.reverse with
  | nil => simpa using hrev.symm
  | cons c r =>
    have hc : c ∉ ['\n', '\r'] := h c (by rw [List.getLast?_eq_head?_reverse, hrev]; rfl)
    simp only [List.mem_cons, List.not_mem_nil, or_false, not_or] at hc
    have hcs : (c :: r).reverse = cs := by rw [← hrev, List.reverse_reverse]
    simp_all

end Scaffold.Template
