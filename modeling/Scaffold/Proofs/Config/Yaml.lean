import Scaffold.Proofs.Config.Fields
import Scaffold.Proofs.Yaml.Comes

/-!
# What YAML says of settings

A YAML mapping says of settings what its pairs say, where aliases stand for their trees. Any scalar is a
text; only whether settings are validated has to be a boolean, and a schema may be null (`yamlSetting?`). The
YAML reader gives what a whole document says (`ofYaml_mapping`).
-/

namespace Scaffold.Config

open Yaml (Document Decoding Comes Fails)

/-- What a tree says of a field. -/
def yamlSetting? (name : String) (d : Yaml.Draft) : Option Setting :=
  if name = "validate" then d.bool?.map .flag
  else if name = "schema" then d.optionalText?.map fun s => (s.map Setting.text).getD .none
  else d.text?.map .text

/-- The field that a pair of a mapping is. -/
def yamlMember? (doc : Document) (pair : Yaml.Draft × Yaml.Draft) : Option (String × Setting) :=
  ((doc.resolve? pair.1).bind Yaml.Draft.text?).bind fun name =>
    ((doc.resolve? pair.2).bind (yamlSetting? name)).map (name, ·)

variable {doc : Document} {c : Config} {name path : String} {s : Setting} {d : Yaml.Draft}

theorem fits_yamlSetting? (hname : name ∈ fieldNames) (h : yamlSetting? name d = some s) :
    s.Fits name := by
  unfold yamlSetting? at h
  split_ifs at h with hvalidate hschema
  · obtain ⟨b, -, rfl⟩ := Option.map_eq_some_iff.1 h
    exact hvalidate
  · obtain ⟨o, -, rfl⟩ := Option.map_eq_some_iff.1 h
    subst hschema
    cases o with
    | none => rfl
    | some x => exact (by rw [Setting.Fits]; decide : Setting.Fits "schema" (.text x))
  · obtain ⟨x, -, rfl⟩ := Option.map_eq_some_iff.1 h
    have htext : ∀ n ∈ fieldNames, n ≠ "validate" →
        n ∈ ["templates_dir", "default_mode", "output", "build_root", "schema"] := by decide
    exact htext name hname hvalidate

theorem comes_readSetting (hdoc : doc.AnchorsTrees) (name path : String) (d : Yaml.Draft) :
    Comes doc (readSetting name (path, d)) d.size ((doc.resolve? d).bind (yamlSetting? name)) := by
  have hmap : ∀ {α : Type} (o : Option Yaml.Draft) (f : Yaml.Draft → Option α) (g : α → Setting),
      (o.bind fun d => (f d).map g) = (o.bind f).map g := by
    intro α o f g
    cases o <;> rfl
  unfold readSetting yamlSetting?
  simp only
  split_ifs
  · rw [hmap]
    exact (Comes.bool hdoc path d).map _
  · rw [hmap, Option.map_eq_bind]
    refine (Comes.optionalString hdoc _ path d).bind (l := 0) fun o _ => ?_
    cases o with
    | none => exact .of_gives (.pure _)
    | some x => exact .of_gives (.pure _)
  -- the two wordings of a text
  all_goals
    rw [hmap]
    exact (Comes.string hdoc _ path d).map _

/-- **One field**: it is taken if it is known, has not been set and has a value of its type. -/
theorem comes_readField (hdoc : doc.AnchorsTrees) (r : Config × List String) (name path : String)
    (d : Yaml.Draft) : Comes doc (readField r name (path, d)) d.size
      (((doc.resolve? d).bind (yamlSetting? name)).bind fun s => take? r (name, s)) := by
  obtain ⟨c, seen⟩ := r
  have hfails : ∀ f : Decode.Fault, (∀ s, take? (c, seen) (name, s) = none) →
      Comes doc (Decoding.fail f) d.size
        (((doc.resolve? d).bind (yamlSetting? name)).bind fun s => take? (c, seen) (name, s)) := by
    intro f htake
    simp only [htake]
    rw [Option.bind_fun_none]
    exact (Comes.of_fails (.fail f)).mono (Nat.zero_le _)
  rw [readField]
  by_cases hname : name ∈ fieldNames
  · by_cases hseen : name ∈ seen
    · simp only [List.contains_eq_mem, hname, hseen, decide_true, Bool.not_true, if_true]
      refine hfails _ fun s => ?_
      rw [take?, if_pos hseen]
    · simp only [List.contains_eq_mem, hname, hseen, decide_true, decide_false, Bool.not_true]
      refine (comes_readSetting hdoc name path d).bind (l := 0) fun s hs => ?_
      obtain ⟨t, -, ht⟩ := Option.bind_eq_some_iff.1 hs
      have htake : take? (c, seen) (name, s) = some (c.overlay [(name, s)], name :: seen) :=
        take?_eq_some.2 ⟨hseen, fits_yamlSetting? hname ht, rfl⟩
      have hset : c.set? name s = some (c.overlay [(name, s)]) :=
        set?_eq_some.2 ⟨fits_yamlSetting? hname ht, rfl⟩
      rw [htake, hset]
      exact .of_gives (.pure _)
  · simp only [List.contains_eq_mem, hname, decide_false, Bool.not_false, if_true]
    refine hfails _ fun s => Option.eq_none_iff_forall_ne_some.2 fun r htake => ?_
    exact hname (take?_eq_some.1 htake).2.1.mem_fieldNames

/-- **The fields of a mapping** are taken one after the other. -/
theorem comes_fields (hdoc : doc.AnchorsTrees) (path : String) (pairs : List (Yaml.Draft × Yaml.Draft))
    (r : Config × List String) : Comes doc (Decoding.fields path readField pairs r)
      (Yaml.Draft.sizeOfPairs pairs) (collect r (pairs.map (yamlMember? doc))) := by
  induction pairs generalizing r with
  | nil => exact .of_gives (.pure r)
  | cons pair pairs ih =>
    obtain ⟨k, v⟩ := pair
    have hcollect : collect r (((k, v) :: pairs).map (yamlMember? doc)) =
        ((doc.resolve? k).bind Yaml.Draft.text?).bind fun name =>
          (((doc.resolve? v).bind (yamlSetting? name)).bind fun s => take? r (name, s)).bind fun r =>
            collect r (pairs.map (yamlMember? doc)) := by
      rw [List.map_cons, yamlMember?]
      cases (doc.resolve? k).bind Yaml.Draft.text? with
      | none => rfl
      | some name =>
        simp only [Option.bind_some]
        cases (doc.resolve? v).bind (yamlSetting? name) <;> rfl
    rw [Decoding.fields, Yaml.Draft.sizeOfPairs, hcollect, Nat.add_assoc]
    refine (Comes.string hdoc "field identifier" path k).bind fun name _ => ?_
    exact (comes_readField hdoc r name (Decoding.keyPath path k) v).bind fun r _ => ih r

/-! ### Whole texts -/

variable {text : String} {mk : Yaml.Mark} {pairs : List (Yaml.Draft × Yaml.Draft)} {closed : Bool}

/-- **A mapping sets what its pairs say**, if the text is a whole document. -/
theorem ofYaml_mapping (hroot : (Document.read text).root = some (.mapping mk pairs closed)) :
    ofYaml text = .ok c ↔ (Document.read text).whole = true ∧ closed = true ∧
      ∃ fs : Fields, pairs.map (yamlMember? (Document.read text)) = fs.map some ∧ fs.WellTyped ∧
        c = ofFields fs := by
  have hdoc := Document.anchorsTrees_read hroot
  have hfields := comes_fields hdoc "" pairs (standard, [])
  have hrecord := (hfields.bind (g := fun r => if closed then some r.1 else none) (l := 0)
    (f := fun b => Decoding.closing closed >>= fun _ => Decoding.ofExcept (.ok b.1)) fun r _ => by
      cases closed with
      | true => exact .of_gives (.bind .closing (.ofExcept rfl))
      | false => exact .of_fails ((Fails.fail _).bind _)).located ""
  have hroom : Yaml.Draft.sizeOfPairs pairs + 0 ≤ (Document.read text).size := by
    rw [(Document.read_of_root hroot).2, Yaml.Draft.size]
    omega
  rw [ofYaml, Comes.run_eq_ok (by rw [hroot]; exact hrecord) hroom, ← collect_standard]
  cases closed with
  | true =>
    rw [Option.map_eq_bind]
    simp only [if_true, true_and]
    rfl
  | false =>
    simp

/-- Nothing is set where nothing is written. -/
theorem ofYaml_of_root_none (hroot : (Document.read text).root = none)
    (hwhole : (Document.read text).whole = true) : ofYaml text = .ok standard := by
  rw [ofYaml, Decoding.run, hroot]
  simp only [Decoding.record, Decoding.located, Decoding.ofExcept]
  exact if_pos hwhole

/-- Anything that is written and is no mapping says nothing of settings. -/
theorem ofYaml_of_not_mapping {d : Yaml.Draft} (hroot : (Document.read text).root = some d)
    (hmapping : ∀ mk pairs closed, d ≠ .mapping mk pairs closed)
    (hd : Decoding.isNothing d = false) : ofYaml text ≠ .ok c := by
  have hfails : Fails (Decoding.record "struct PipelineConfig" readField (standard, [])
      (fun c => .ok c.1) (some d)) := by
    refine Fails.located "" ?_
    cases d with
    | mapping mk pairs closed => exact absurd rfl (hmapping mk pairs closed)
    | _ =>
      simp only [hd]
      exact .fail _
  obtain ⟨t, ht⟩ := hfails (Document.read text) 0
  rw [ofYaml, Decoding.run, hroot]
  simp only [ht, ne_eq, reduceCtorEq, not_false_eq_true]

end Scaffold.Config
