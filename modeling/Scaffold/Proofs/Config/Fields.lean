import Scaffold.Config
import Scaffold.Proofs.Entries

/-!
# Fields of settings

Settings are what some fields say, each of them once, and what is standard for every other field
(`ofFields`). A reader that takes the fields one after the other, and stops at the first one that is missing,
repeated or of another type, comes to just these settings (`collect_eq_some`). What JSON says of settings is
`Says` (`ofJson?_eq_some`).
-/

namespace Scaffold.Config

/-! ### Fields and their values -/

/-- Names of fields with their values. -/
abbrev Fields := List (String × Setting)

namespace Setting

/-- Whether a value is of the type of a field. -/
def Fits (name : String) : Setting → Prop
  | text _ => name ∈ ["templates_dir", "default_mode", "output", "build_root", "schema"]
  | flag _ => name = "validate"
  | none => name = "schema"

instance (name : String) : (s : Setting) → Decidable (s.Fits name)
  | text _ => inferInstanceAs (Decidable (name ∈ _))
  | flag _ => inferInstanceAs (Decidable (name = _))
  | none => inferInstanceAs (Decidable (name = _))

def text? : Setting → Option String
  | text s => some s
  | _ => .none

def flag? : Setting → Option Bool
  | flag b => some b
  | _ => .none

def optional? : Setting → Option (Option Path)
  | text s => some (some ⟨s⟩)
  | none => some .none
  | _ => .none

end Setting

namespace Fields

/-- Every field is known and is set once, to a value of its type. -/
structure WellTyped (fs : Fields) : Prop where
  once : (Entries.keys fs).Nodup
  fits : ∀ f ∈ fs, f.2.Fits f.1

/-- The value of a field, or the given one if the field is not set. -/
def valueOr {α : Type} (fs : Fields) (name : String) (read : Setting → Option α) (default : α) : α :=
  ((fs.lookup name).bind read).getD default

end Fields

/-- The settings with the values of some fields, and with those of `c` for the others. -/
def overlay (c : Config) (fs : Fields) : Config where
  templatesDir := ⟨fs.valueOr "templates_dir" Setting.text? c.templatesDir.text⟩
  defaultMode := fs.valueOr "default_mode" Setting.text? c.defaultMode
  output := ⟨fs.valueOr "output" Setting.text? c.output.text⟩
  buildRoot := ⟨fs.valueOr "build_root" Setting.text? c.buildRoot.text⟩
  validate := fs.valueOr "validate" Setting.flag? c.validate
  schema := fs.valueOr "schema" Setting.optional? c.schema

/-- The settings with the values of some fields, and with the standard ones for the others. -/
def ofFields (fs : Fields) : Config := standard.overlay fs

variable {c c' : Config} {fs : Fields} {name : String} {s : Setting}

theorem Fields.wellTyped_nil : Fields.WellTyped [] := ⟨List.nodup_nil, by simp⟩

theorem Fields.wellTyped_cons : Fields.WellTyped ((name, s) :: fs) ↔
    name ∉ Entries.keys fs ∧ s.Fits name ∧ fs.WellTyped := by
  constructor
  · rintro ⟨honce, hfits⟩
    obtain ⟨hname, honce⟩ := List.nodup_cons.1 honce
    obtain ⟨hfit, hfits⟩ := List.forall_mem_cons.1 hfits
    exact ⟨hname, hfit, honce, hfits⟩
  · rintro ⟨hname, hfit, honce, hfits⟩
    exact ⟨List.nodup_cons.2 ⟨hname, honce⟩, List.forall_mem_cons.2 ⟨hfit, hfits⟩⟩

theorem overlay_nil (c : Config) : c.overlay [] = c := rfl

/-- Fields that are set one after the other are set at once, unless one of them is set again. -/
theorem Fields.valueOr_cons {α : Type} {read : Setting → Option α} {default : α} {field : String}
    (h : name ∉ Entries.keys fs) :
    fs.valueOr field read (Fields.valueOr [(name, s)] field read default) =
      Fields.valueOr ((name, s) :: fs) field read default := by
  unfold valueOr
  by_cases hname : field = name
  · subst hname
    rw [Entries.lookup_eq_none h, List.lookup_cons_self, List.lookup_cons_self]
    rfl
  · have hne : (field == name) = false := beq_false_of_ne hname
    rw [List.lookup_cons, List.lookup_cons, hne]
    rfl

theorem overlay_overlay (h : name ∉ Entries.keys fs) :
    (c.overlay [(name, s)]).overlay fs = c.overlay ((name, s) :: fs) := by
  unfold overlay
  simp only [Fields.valueOr_cons h]

/-- **A field is set to a value of its type**, and to no other one. -/
theorem set?_eq_some : c.set? name s = some c' ↔ s.Fits name ∧ c' = c.overlay [(name, s)] := by
  -- a field that is set is changed to the value, and no other field is
  have hset : ∀ c₁, c₁ = c.overlay [(name, s)] → s.Fits name →
      (some c₁ = some c' ↔ s.Fits name ∧ c' = c.overlay [(name, s)]) := by
    rintro c₁ rfl hfits
    rw [Option.some.injEq, eq_comm]
    exact (and_iff_right hfits).symm
  have hunset : ¬ s.Fits name → (False ↔ s.Fits name ∧ c' = c.overlay [(name, s)]) := by
    intro hfits
    exact iff_of_false id fun h => hfits h.1
  cases s with
  | text x =>
    rw [set?]
    split_ifs with h₁ h₂ h₃ h₄ h₅
    case neg =>
      apply hunset
      rw [Setting.Fits]
      simp [h₁, h₂, h₃, h₄, h₅]
    all_goals
      subst name
      exact hset _ rfl (by rw [Setting.Fits]; decide)
  | flag b =>
    rw [set?]
    split_ifs with h
    · subst h
      exact hset _ rfl rfl
    · exact hunset h
  | none =>
    rw [set?]
    split_ifs with h
    · subst h
      exact hset _ rfl rfl
    · exact hunset h

theorem Setting.Fits.mem_fieldNames (h : s.Fits name) : name ∈ fieldNames := by
  cases s with
  | text x => exact (by decide : ["templates_dir", "default_mode", "output", "build_root", "schema"] ⊆
      fieldNames) h
  | flag b => exact h ▸ by decide
  | none => exact h ▸ by decide

/-! ### Fields one after the other -/

/-- Sets a field, unless it is one of those that have been set or the value is of another type. -/
def take? (c : Config × List String) (f : String × Setting) : Option (Config × List String) :=
  if f.1 ∈ c.2 then .none else (c.1.set? f.1 f.2).map (·, f.1 :: c.2)

/-- Takes fields one after the other, none of which may be missing. -/
def collect (c : Config × List String) : List (Option (String × Setting)) → Option (Config × List String)
  | [] => some c
  | .none :: _ => .none
  | some f :: r => (take? c f).bind fun c => collect c r

theorem take?_eq_some {seen : List String} {r : Config × List String} :
    take? (c, seen) (name, s) = some r ↔
      name ∉ seen ∧ s.Fits name ∧ r = (c.overlay [(name, s)], name :: seen) := by
  rw [take?]
  split_ifs with hseen
  · exact ⟨(nomatch ·), fun h => absurd hseen h.1⟩
  · simp only [Option.map_eq_some_iff, set?_eq_some]
    constructor
    · rintro ⟨c₁, ⟨hfits, rfl⟩, rfl⟩
      exact ⟨hseen, hfits, rfl⟩
    · rintro ⟨-, hfits, rfl⟩
      exact ⟨_, ⟨hfits, rfl⟩, rfl⟩

/-- **Fields that are taken one after the other**: they are well-typed, and set at once. -/
theorem collect_eq_some {os : List (Option (String × Setting))} {seen seen' : List String} :
    collect (c, seen) os = some (c', seen') ↔ ∃ fs : Fields, os = fs.map some ∧ fs.WellTyped ∧
      (∀ name ∈ Entries.keys fs, name ∉ seen) ∧ c' = c.overlay fs ∧
      seen' = (Entries.keys fs).reverse ++ seen := by
  -- the state of the induction is what has been set, and under which names
  induction os generalizing c seen with
  | nil =>
    rw [collect, Option.some.injEq, Prod.mk.injEq]
    constructor
    · rintro ⟨rfl, rfl⟩
      exact ⟨[], rfl, Fields.wellTyped_nil, by simp, rfl, rfl⟩
    · rintro ⟨fs, hfs, -, -, rfl, rfl⟩
      obtain rfl := List.map_eq_nil_iff.1 hfs.symm
      exact ⟨rfl, rfl⟩
  | cons o os ih =>
    obtain _ | ⟨name, s⟩ := o
    · rw [collect]
      refine ⟨(nomatch ·), ?_⟩
      rintro ⟨fs, hfs, -⟩
      cases fs <;> cases hfs
    · rw [collect]
      simp only [Option.bind_eq_some_iff, take?_eq_some]
      constructor
      · rintro ⟨r, ⟨hseen, hfits, rfl⟩, hrest⟩
        obtain ⟨fs, rfl, htyped, hnew, rfl, rfl⟩ := ih.1 hrest
        have hname : name ∉ Entries.keys fs := fun hmem => hnew name hmem List.mem_cons_self
        refine ⟨(name, s) :: fs, rfl, Fields.wellTyped_cons.2 ⟨hname, hfits, htyped⟩, ?_,
          overlay_overlay hname, by simp⟩
        exact List.forall_mem_cons.2
          ⟨hseen, fun n hn hmem => hnew n hn (List.mem_cons_of_mem _ hmem)⟩
      · rintro ⟨fs, hfs, htyped, hnew, rfl, rfl⟩
        obtain ⟨f, fs, rfl, ⟨⟩, rfl⟩ := List.map_eq_cons_iff.1 hfs.symm
        obtain ⟨hname, hfits, hrest⟩ := Fields.wellTyped_cons.1 htyped
        refine ⟨_, ⟨hnew name (by simp), hfits, rfl⟩,
          ih.2 ⟨fs, rfl, hrest, ?_, (overlay_overlay hname).symm, by simp⟩⟩
        intro n hn hmem
        rcases List.mem_cons.1 hmem with rfl | hmem
        · exact hname hn
        · exact hnew n (List.mem_cons_of_mem _ hn) hmem

/-- What is collected from the beginning. -/
theorem collect_standard {os : List (Option (String × Setting))} :
    (collect (standard, []) os).map Prod.fst = some c ↔
      ∃ fs : Fields, os = fs.map some ∧ fs.WellTyped ∧ c = ofFields fs := by
  rw [Option.map_eq_some_iff]
  constructor
  · rintro ⟨⟨c', seen⟩, h, rfl⟩
    obtain ⟨fs, hfs, htyped, -, hc, -⟩ := collect_eq_some.1 h
    exact ⟨fs, hfs, htyped, hc⟩
  · rintro ⟨fs, hfs, htyped, rfl⟩
    exact ⟨_, collect_eq_some.2 ⟨fs, hfs, htyped, by simp, rfl, rfl⟩, rfl⟩

/-! ### What JSON says -/

open Json

/-- The field that a member of an object is. -/
def member? : Option String × Draft → Option (String × Setting)
  | (some name, d) => (jsonSetting? d).map (name, ·)
  | (none, _) => .none

/-- The fields of a JSON value: those of an object, or the values in an array, which are for the fields in
their order. -/
inductive JsonFields : Draft → Fields → Prop
  | object {ms : List (Option String × Draft)} {fs : Fields} (h : ms.map member? = fs.map some) :
      JsonFields (.object ms true) fs
  | array {items : List Draft} {vs : List Setting} (h : items.map jsonSetting? = vs.map some)
      (hlength : vs.length ≤ fieldNames.length) : JsonFields (.array items true) (fieldNames.zip vs)

/-- **What a JSON value says of settings**: known fields, each once and with a value of its type. -/
def Says (d : Draft) (c : Config) : Prop := ∃ fs, JsonFields d fs ∧ fs.WellTyped ∧ c = ofFields fs

theorem ofMembers?_eq_collect (c : Config) (seen : List String) (ms : List (Option String × Draft)) :
    ofMembers? c seen ms = (collect (c, seen) (ms.map member?)).map Prod.fst := by
  induction ms generalizing c seen with
  | nil => rfl
  | cons m ms ih =>
    obtain ⟨_ | name, d⟩ := m
    · rfl
    · rw [ofMembers?, List.map_cons]
      cases hd : jsonSetting? d with
      | none =>
        have hmember : member? (some name, d) = none := by rw [member?, hd]; rfl
        rw [hmember, collect]
        simp
      | some s =>
        have hmember : member? (some name, d) = some (name, s) := by rw [member?, hd]; rfl
        rw [hmember, collect, take?]
        by_cases hseen : name ∈ seen
        · simp [hseen]
        · cases hset : c.set? name s <;> simp [hseen, hset, ih]

theorem ofItems?_eq_some {items : List Draft} {names : List String} (hnames : names.Nodup) :
    ofItems? c names items = some c' ↔ ∃ vs : List Setting, items.map jsonSetting? = vs.map some ∧
      vs.length ≤ names.length ∧ Fields.WellTyped (names.zip vs) ∧ c' = c.overlay (names.zip vs) := by
  induction items generalizing c names with
  | nil =>
    rw [ofItems?, Option.some.injEq]
    constructor
    · rintro rfl
      refine ⟨[], rfl, Nat.zero_le _, ?_⟩
      rw [List.zip_nil_right]
      exact ⟨Fields.wellTyped_nil, rfl⟩
    · rintro ⟨vs, hvs, -, -, rfl⟩
      obtain rfl := List.map_eq_nil_iff.1 hvs.symm
      rw [List.zip_nil_right, overlay_nil]
  | cons d items ih =>
    cases names with
    | nil =>
      rw [ofItems?]
      refine ⟨(nomatch ·), ?_⟩
      rintro ⟨vs, hvs, hlength, -⟩
      obtain rfl := List.eq_nil_of_length_eq_zero (Nat.le_zero.1 hlength)
      cases hvs
    | cons name names =>
      obtain ⟨hname, hrest⟩ := List.nodup_cons.1 hnames
      -- no later value is for this field, since the names are different
      have hnew : ∀ vs : List Setting, name ∉ Entries.keys (names.zip vs) := by
        intro vs hmem
        obtain ⟨f, hf, rfl⟩ := List.mem_map.1 hmem
        exact hname (List.of_mem_zip hf).1
      rw [ofItems?]
      simp only [Option.bind_eq_bind, Option.bind_eq_some_iff, set?_eq_some, ih hrest]
      constructor
      · rintro ⟨s, hs, c₁, ⟨hfits, rfl⟩, vs, hvs, hlength, htyped, rfl⟩
        exact ⟨s :: vs, by rw [List.map_cons, List.map_cons, hs, hvs], by simpa using hlength,
          Fields.wellTyped_cons.2 ⟨hnew vs, hfits, htyped⟩, overlay_overlay (hnew vs)⟩
      · rintro ⟨vs, hvs, hlength, htyped, rfl⟩
        obtain ⟨s, vs, rfl, hs, hvs⟩ := List.map_eq_cons_iff.1 hvs.symm
        obtain ⟨-, hfits, hrest⟩ := Fields.wellTyped_cons.1 htyped
        exact ⟨s, hs.symm, _, ⟨hfits, rfl⟩, vs, hvs.symm, by simpa using hlength, hrest,
          (overlay_overlay (hnew vs)).symm⟩

/-- **The JSON reader gives what a text says that is JSON to its end.** -/
theorem ofJson?_eq_some {text : String} :
    ofJson? text = some c ↔ ∃ d, Draft.ofChars text.toList = (d, true) ∧ Says d c := by
  have hobject : ∀ ms, ofMembers? standard [] ms = some c ↔ Says (.object ms true) c := by
    intro ms
    rw [ofMembers?_eq_collect, collect_standard]
    constructor
    · rintro ⟨fs, hfs, htyped, rfl⟩
      exact ⟨fs, .object hfs, htyped, rfl⟩
    · rintro ⟨fs, ⟨hfs⟩, htyped, rfl⟩
      exact ⟨fs, hfs, htyped, rfl⟩
  have harray : ∀ items, ofItems? standard fieldNames items = some c ↔ Says (.array items true) c := by
    intro items
    rw [ofItems?_eq_some (by decide)]
    constructor
    · rintro ⟨vs, hvs, hlength, htyped, rfl⟩
      exact ⟨_, .array hvs hlength, htyped, rfl⟩
    · rintro ⟨fs, hfs, htyped, rfl⟩
      cases hfs with
      | array hvs hlength => exact ⟨_, hvs, hlength, htyped, rfl⟩
  unfold ofJson?
  split
  next ms h => simp [h, hobject]
  next items h => simp [h, harray]
  next hobj harr =>
    refine ⟨(nomatch ·), ?_⟩
    rintro ⟨d, hd, fs, hfs, -⟩
    cases hfs with
    | object => exact absurd hd (hobj _)
    | array => exact absurd hd (harr _)

end Scaffold.Config
