import Mathlib.Logic.Relation
import Scaffold.Path
import Scaffold.Proofs.Text.Split

/-!
# The paths that a path lies in

`LiesIn p q` says that `q` is the path `p` or one of its parent directories, however far up. The
paths in `ancestors` are among these (`liesIn_of_mem_ancestors`). The parent of a path is made of a
prefix of its pieces, and starts in the same directory (`parent?_eq_some`). So the names of each path
that a path lies in are a prefix of its own (`LiesIn.names`).
-/

namespace Scaffold.Path

open Relation (ReflTransGen)

variable {p q : Path} {b : Bool} {ps qs : List (List Char)}

theorem dropNone_suffix (b : Bool) (ps : List (List Char)) : dropNone b ps <:+ ps := by
  induction ps with
  | nil => exact List.suffix_rfl
  | cons piece r ih =>
    simp only [dropNone]
    split
    · exact List.suffix_rfl
    · split
      next h =>
        simp only [Bool.and_eq_true, List.isEmpty_iff, beq_iff_eq] at h
        obtain ⟨⟨-, rfl⟩, -⟩ := h
        exact List.suffix_rfl
      · exact ih.trans (List.suffix_cons piece r)

/-- What is left in front of an absolute path is a component. -/
theorem component?_of_dropNone {piece : List Char} (h : dropNone false qs = piece :: ps) :
    (component? piece).isSome := by
  induction qs with
  | nil => simp [dropNone] at h
  | cons x r ih =>
    simp only [dropNone, Bool.false_and, Bool.false_eq_true, if_false] at h
    split at h
    next hx =>
      rw [List.cons.injEq] at h
      exact h.1 ▸ hx
    · exact ih h

theorem toList_ofReversed (ps : List (List Char)) :
    (ofReversed ps).toList = ['/'].intercalate ps.reverse := by
  simp [ofReversed, List.map_map, Function.comp_def]

/-- The pieces of a path that is made of pieces of another one. -/
theorem pieces_ofReversed (hne : ps ≠ []) (h : ps <:+ p.pieces.reverse) :
    (mk (ofReversed ps)).pieces = ps.reverse := by
  rw [pieces, toList_ofReversed, Text.splitAll_intercalate (by simpa using hne)]
  intro piece hp
  have hm : piece ∈ p.pieces := List.mem_reverse.1 (h.subset (List.mem_reverse.1 hp))
  exact Text.not_mem_of_mem_splitAll hm

theorem names_ofReversed (h : ps <:+ p.pieces.reverse) :
    (mk (ofReversed ps)).names <+: p.names := by
  by_cases hne : ps = []
  · subst hne
    exact List.nil_prefix
  · rw [names, pieces_ofReversed hne h]
    refine List.IsPrefix.filter _ ?_
    have := List.reverse_prefix.2 h
    rwa [List.reverse_reverse] at this

/-- A path is absolute if its first piece is empty and another one follows. -/
theorem isAbsolute_iff : p.isAbsolute = true ↔ ∃ piece r, p.pieces = [] :: piece :: r := by
  rw [isAbsolute, pieces, beq_iff_eq]
  cases p.text.toList with
  | nil => simp [Text.splitAll]
  | cons c r =>
    obtain ⟨x, xs, hx⟩ := List.exists_cons_of_ne_nil (Text.splitAll_ne_nil '/' r)
    by_cases hc : c = '/' <;> simp [Text.splitAll, hc, hx]

theorem isAbsolute_of_ofReversed (hne : ps ≠ []) (h : ps <:+ p.pieces.reverse)
    (ha : (mk (ofReversed ps)).isAbsolute = true) : p.isAbsolute = true := by
  obtain ⟨piece, r, hp⟩ := isAbsolute_iff.1 ha
  rw [pieces_ofReversed hne h] at hp
  have hpre := List.reverse_prefix.2 h
  rw [List.reverse_reverse, hp] at hpre
  obtain ⟨t, ht⟩ := hpre
  exact isAbsolute_iff.2 ⟨piece, r ++ t, by simpa using ht.symm⟩

theorem isAbsolute_ofReversed {piece : List Char} (hc : (component? piece).isSome)
    (h : piece :: ps <:+ p.pieces.reverse) (ha : p.isAbsolute = true) :
    (mk (ofReversed (piece :: ps))).isAbsolute = true := by
  obtain ⟨x, xs, hx⟩ := isAbsolute_iff.1 ha
  have hpre := List.reverse_prefix.2 h
  rw [List.reverse_reverse, hx, List.reverse_cons] at hpre
  refine isAbsolute_iff.2 ?_
  rw [pieces_ofReversed (by simp) h, List.reverse_cons]
  obtain ⟨t, ht⟩ := hpre
  -- the piece in front is a component, so it is not the empty one that the path begins with
  cases hr : ps.reverse with
  | nil =>
    rw [hr] at ht
    obtain rfl : piece = [] := by simpa using (List.cons.inj ht).1
    simp [component?] at hc
  | cons y ys =>
    rw [hr] at ht
    obtain rfl : y = [] := (List.cons.inj ht).1
    obtain ⟨z, zs, hz⟩ := List.exists_cons_of_ne_nil (show ys ++ [piece] ≠ [] by simp)
    exact ⟨z, zs, by rw [List.cons_append, hz]⟩

/-- **The parent of a path** has a prefix of its names and starts where it starts. -/
theorem parent?_eq_some (h : p.parent? = some q) :
    q.names <+: p.names ∧ q.isAbsolute = p.isAbsolute := by
  unfold parent? at h
  split at h
  next ha =>
    -- an absolute path keeps the empty piece that it begins with
    split at h
    · simp at h
    next x r hd =>
      have hr : r <:+ p.pieces.reverse :=
        (List.suffix_cons x r).trans (hd ▸ dropNone_suffix false p.pieces.reverse)
      split at h
      · obtain rfl := Option.some.inj h
        exact ⟨by simp [names, pieces, Text.splitAll], by rw [ha]; rfl⟩
      next ps hne =>
        obtain rfl := Option.some.inj h
        obtain ⟨y, ys, hy⟩ := List.exists_cons_of_ne_nil hne
        have hs : y :: ys <:+ p.pieces.reverse := hy ▸ (dropNone_suffix false r).trans hr
        rw [hy, isAbsolute_ofReversed (component?_of_dropNone hy) hs ha]
        exact ⟨names_ofReversed hs, ha.symm⟩
  next ha =>
    split at h
    · simp at h
    next x r hd =>
      obtain rfl := Option.some.inj h
      have hs : dropNone true r <:+ p.pieces.reverse := ((dropNone_suffix true r).trans
        (List.suffix_cons x r)).trans (hd ▸ dropNone_suffix true p.pieces.reverse)
      refine ⟨names_ofReversed hs, ?_⟩
      rw [Bool.eq_false_iff.2 ha, Bool.eq_false_iff]
      -- were the parent absolute, the path would begin with the same two pieces
      by_cases hne : dropNone true r = []
      · rw [hne]; simp [ofReversed, isAbsolute]
      · exact fun hq => ha (isAbsolute_of_ofReversed hne hs hq)

/-- The path `q` is `p`, or a parent directory of it. -/
def LiesIn (p q : Path) : Prop := ReflTransGen (fun q r => q.parent? = some r) p q

theorem LiesIn.self (p : Path) : p.LiesIn p := ReflTransGen.refl

theorem liesIn_of_mem_ancestorsFrom {fuel : Nat} (h : q ∈ ancestorsFrom fuel p) : p.LiesIn q := by
  induction fuel generalizing p with
  | zero =>
    obtain rfl := List.mem_singleton.1 h
    exact .self q
  | succ fuel ih =>
    simp only [ancestorsFrom] at h
    split at h
    next r hr =>
      rcases List.mem_cons.1 h with rfl | h
      · exact .self q
      · exact ReflTransGen.head hr (ih h)
    · obtain rfl := List.mem_singleton.1 h
      exact .self q

theorem liesIn_of_mem_ancestors (h : q ∈ p.ancestors) : p.LiesIn q :=
  liesIn_of_mem_ancestorsFrom h

theorem LiesIn.of_parent {r : Path} (hr : p.parent? = some r) (h : r.LiesIn q) : p.LiesIn q :=
  ReflTransGen.head hr h

/-- A list that holds the path and with each path its parent holds all that the path lies in. -/
theorem LiesIn.mem {chain : List Path} (hp : p ∈ chain)
    (hchain : ∀ q ∈ chain, ∀ r ∈ q.parent?, r ∈ chain) (h : p.LiesIn q) : q ∈ chain := by
  induction h with
  | refl => exact hp
  | tail _ hr ih => exact hchain _ ih _ hr

/-- **The names of every path that a path lies in** are a prefix of its names. -/
theorem LiesIn.names (h : p.LiesIn q) : q.names <+: p.names ∧ q.isAbsolute = p.isAbsolute := by
  induction h with
  | refl => exact ⟨List.prefix_rfl, rfl⟩
  | tail _ hr ih =>
    obtain ⟨hnames, habsolute⟩ := parent?_eq_some hr
    exact ⟨hnames.trans ih.1, habsolute.trans ih.2⟩

theorem mem_ancestors (h : q ∈ p.ancestors) :
    q.names <+: p.names ∧ q.isAbsolute = p.isAbsolute := (liesIn_of_mem_ancestors h).names

theorem ancestors_eq_cons (p : Path) : ∃ r, p.ancestors = p :: r := by
  unfold ancestors ancestorsFrom
  split
  · exact ⟨_, rfl⟩
  · exact ⟨_, rfl⟩

end Scaffold.Path
