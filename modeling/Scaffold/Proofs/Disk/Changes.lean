import Scaffold.Proofs.Disk.Files
import Scaffold.Proofs.Path.Parent

/-!
# What a change leaves alone

`ChangesAt S d e` says that a disk has changed only where paths of `S` lead. Making directories and
writing files are such changes (`changesAt_makeDirectories`, `changesAt_writeFile`). Another path is
located as before, unless it goes up out of something new (`locate_iff`).
-/

namespace Scaffold.Disk

variable {d e f : Disk} {p q : Path} {k l m : Location} {piece : List Char}
variable {ps : List (List Char)} {S T : Path → Prop}

/-- **Only where some paths lead has anything changed**, and every entry is still there. -/
structure ChangesAt (S : Path → Prop) (d e : Disk) : Prop where
  home : e.home = d.home
  keeps : d.view.Keeps e.view
  view : ∀ l, e.view l = d.view l ∨ ∃ q, S q ∧ e.locate q = .ok l

theorem locate_of_keeps (hh : e.home = d.home) (hk : d.view.Keeps e.view)
    (h : d.locate p = .ok l) : e.locate p = .ok l := by
  obtain ⟨hc, hw⟩ := locate_eq_ok.1 h
  have ho : e.origin p = d.origin p := by rw [origin, origin, hh]
  exact locate_eq_ok.2 ⟨hc, ho ▸ walk_of_keeps hk hw⟩

namespace ChangesAt

theorem refl (S : Path → Prop) (d : Disk) : ChangesAt S d d :=
  ⟨rfl, View.Keeps.refl _, fun _ => .inl rfl⟩

theorem trans (h : ChangesAt S d e) (h' : ChangesAt S e f) : ChangesAt S d f := by
  refine ⟨h'.home.trans h.home, h.keeps.trans h'.keeps, fun l => ?_⟩
  rcases h'.view l with hl' | hl'
  · rcases h.view l with hl | ⟨q, hq, hl⟩
    · exact .inl (hl'.trans hl)
    · exact .inr ⟨q, hq, locate_of_keeps h'.home h'.keeps hl⟩
  · exact .inr hl'

theorem mono (h : ChangesAt S d e) (hST : ∀ q, S q → T q) : ChangesAt T d e := by
  refine ⟨h.home, h.keeps, fun l => (h.view l).imp_right ?_⟩
  rintro ⟨q, hq, hl⟩
  exact ⟨q, hST q hq, hl⟩

/-- One place has changed, to which a path leads. -/
theorem of_update {s : Standing} (hp : S p) (hl : e.locate p = .ok m) (hh : e.home = d.home)
    (hv : e.view = Function.update d.view m (some s))
    (hs : ∀ t, d.view m = some t → t.isDirectory = s.isDirectory) : ChangesAt S d e := by
  refine ⟨hh, hv ▸ View.Keeps.update hs, fun l => ?_⟩
  by_cases hlm : l = m
  · exact .inr ⟨p, hp, hlm ▸ hl⟩
  · exact .inl (by rw [hv, Function.update_of_ne hlm])

end ChangesAt

/-! ### Making directories and writing files -/

theorem changesAt_makeDirectory (hp : S p) (h : d.makeDirectory p = .ok e) : ChangesAt S d e := by
  obtain ⟨m, hm, hc, hnone, hh, hv⟩ := makeDirectory_eq_ok h
  exact .of_update hp (hm.locate hc) hh hv (by simp [hnone])

-- the chain shrinks from its innermost path on, as it is made
theorem changesAt_makeChain {chain : List Path} (hS : ∀ q ∈ chain, S q) :
    ChangesAt S d (d.makeChain chain).1 := by
  induction chain with
  | nil => exact .refl S d
  | cons q above ih =>
    by_cases hne : q.text = ""
    · rw [makeChain.eq_def d (q :: above)]
      simp only [if_pos hne]
      exact .refl S d
    · obtain ⟨d', hd', h⟩ := makeChain_cons hne d above
      have hchange : ChangesAt S d d' := by
        rcases hd' with rfl | rfl
        · exact .refl S d'
        · exact ih fun x hx => hS x (List.mem_cons_of_mem q hx)
      rcases h with h | ⟨h, -⟩
      · exact hchange.trans (changesAt_makeDirectory (hS q (by simp)) h)
      · rw [h]; exact hchange

theorem changesAt_makeDirectories (d : Disk) (p : Path) :
    ChangesAt p.LiesIn d (d.makeDirectories p).1 :=
  changesAt_makeChain fun _ hq => Path.liesIn_of_mem_ancestors hq

theorem changesAt_writeFile {c : Content} (h : d.writeFile p c = .ok e) :
    ChangesAt p.LiesIn d e := by
  obtain ⟨m, hl, hd, hh, hv⟩ := writeFile_eq_ok h
  refine .of_update (.self p) hl hh hv fun t ht => ?_
  cases t with
  | directory => exact absurd ht hd
  | file c' => rfl

/-! ### Paths that lead elsewhere -/

/-- A directory was one before, unless it is new. -/
theorem directory_of_keeps (hk : d.view.Keeps e.view) (he : e.view l = some .directory)
    (hd : (d.view l).isSome) : d.view l = some .directory := by
  obtain ⟨s, hs⟩ := Option.isSome_iff_exists.1 hd
  obtain ⟨t, ht, hkind⟩ := hk l s hs
  rw [he] at ht
  cases ht
  rw [hs, Standing.eq_directory hkind.symm]

/-- A step that ends at an old place could be made before, unless it went up from a new one. -/
theorem step_of_isSome (hk : d.view.Keeps e.view) (h : e.step k piece = .ok l)
    (hl : (d.view l).isSome) (hup : piece = ['.', '.'] → (d.view k).isSome) :
    d.step k piece = .ok l := by
  have hdir := view_of_step h
  obtain ⟨rfl, rfl⟩ | ⟨rfl, rfl⟩ | ⟨hhere, hne, hlong, -, rfl⟩ := step_eq_ok h
  · rw [step_eq, directory_of_keeps hk hdir hl]
    simp
  · rw [step_eq, directory_of_keeps hk hdir (hup rfl)]
    simp
  · have hd : d.view k = some .directory := by
      by_contra hd
      have hnone := DiskEntry.view_append_of_not_directory (m := [String.ofList piece]) hd (by simp)
      rw [view, hnone] at hl
      cases hl
    rw [step_eq, hd]
    simp [hhere, hne, hlong, hl]

/-- Wherever the pieces go up, they do so from a place where something stood before. -/
def GoesUpFrom (d e : Disk) (k : Location) (ps : List (List Char)) : Prop :=
  ∀ qs m, qs ++ [['.', '.']] <+: ps → e.walk k qs = .ok m → (d.view m).isSome

theorem GoesUpFrom.of_not_mem (h : ['.', '.'] ∉ ps) : GoesUpFrom d e k ps :=
  fun _ _ hqs _ => absurd (hqs.subset (by simp)) h

theorem GoesUpFrom.tail (h : GoesUpFrom d e k (piece :: ps)) (hs : e.step k piece = .ok m) :
    GoesUpFrom d e m ps := by
  intro qs n hqs hn
  refine h (piece :: qs) n (List.cons_prefix_cons.2 ⟨rfl, hqs⟩) ?_
  rw [walk_cons, hs]
  exact hn

theorem isSome_view_of_walk_from (h : d.walk l ps = .ok m) : (d.view l).isSome := by
  cases ps with
  | nil =>
    rw [walk_nil] at h
    by_contra hn
    rw [if_neg hn] at h
    cases h
  | cons p ps =>
    rw [walk_cons] at h
    cases hs : d.step l p with
    | error f => rw [hs] at h; cases h
    | ok k => rw [view_of_step hs]; rfl

/-- **Pieces that lead to an old place** led there before. -/
theorem walk_of_isSome (hk : d.view.Keeps e.view) (h : e.walk k ps = .ok l)
    (hl : (d.view l).isSome) (hup : GoesUpFrom d e k ps) : d.walk k ps = .ok l := by
  induction ps generalizing k with
  | nil =>
    rw [walk_nil] at h ⊢
    split at h
    · cases h
      rw [if_pos hl]
    · cases h
  | cons piece ps ih =>
    rw [walk_cons] at h
    cases hs : e.step k piece with
    | error f => rw [hs] at h; cases h
    | ok m =>
      rw [hs] at h
      have hm := ih h (hup.tail hs)
      have hstep : d.step k piece = .ok m := by
        refine step_of_isSome hk hs (isSome_view_of_walk_from hm) fun hpiece => ?_
        refine hup [] k ⟨ps, by rw [hpiece]; rfl⟩ ?_
        rw [walk_nil, view_of_step hs]
        rfl
      rw [walk_cons, hstep]
      exact hm

/-- **A file that is none of the changed places is located as before**, and is what it was. -/
theorem ChangesAt.locate_iff (h : ChangesAt S d e) {n : String} (hn : PlainName n)
    (hup : GoesUpFrom d e (e.origin p) p.names)
    (helse : ∀ q l, S q → e.locate q = .ok l → e.locate (p.joinName n) ≠ .ok l) :
    (e.locate (p.joinName n) = .ok l ↔ d.locate (p.joinName n) = .ok l) ∧
      (e.locate (p.joinName n) = .ok l → e.view l = d.view l) := by
  have hview : e.locate (p.joinName n) = .ok l → e.view l = d.view l := by
    intro hl
    rcases h.view l with hv | ⟨q, hq, hql⟩
    · exact hv
    · exact absurd hl (helse q l hq hql)
  refine ⟨⟨fun hl => ?_, locate_of_keeps h.home h.keeps⟩, hview⟩
  obtain ⟨hc, hw⟩ := locate_eq_ok.1 hl
  have ho : e.origin (p.joinName n) = d.origin (p.joinName n) := by rw [origin, origin, h.home]
  have hold : (d.view l).isSome := by
    rw [← hview hl]
    exact isSome_view_of_walk hw
  rw [followed_joinName hn] at hw
  have hgo : GoesUpFrom d e (e.origin (p.joinName n)) (p.names ++ [n.toList]) := by
    intro qs m hqs hm
    rw [origin_joinName hn] at hm
    -- the name at the end does not lead up
    refine hup qs m ?_ hm
    rcases List.prefix_concat_iff.1 hqs with heq | hpre
    · exact absurd (List.append_inj_right' heq (by simp)) (by simpa using hn.toList_ne_up.symm)
    · exact hpre
  refine locate_eq_ok.2 ⟨hc, ?_⟩
  rw [followed_joinName hn, ← ho]
  exact walk_of_isSome h.keeps hw hold hgo

end Scaffold.Disk
