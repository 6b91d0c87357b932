import Scaffold.Proofs.Json.Printed
import Scaffold.Proofs.Yaml.Flow
import Scaffold.Proofs.Yaml.Gives
import Scaffold.Specification.Yaml

/-!
# Specifications in JSON, read as YAML

The compact JSON text of a specification is one YAML document, if YAML reads its strings as they are. It
is read back as the specification, if its arrays and objects are nested no deeper than the reader goes
(`Specification.ofYaml_shallow`).
-/

namespace Scaffold

open Yaml (Gives Decoding Quotable)
open Json (Readable ReadableItems ReadableMembers yamlDraft itemDrafts memberDrafts)

/-! ### Strings -/

mutual

/-- The names and the contents of an entry. -/
def LayoutEntry.strings : LayoutEntry → List String
  | .directory n c => n :: LayoutEntry.stringsOfList c
  | .file n c => [n, c]

def LayoutEntry.stringsOfList : List LayoutEntry → List String
  | [] => []
  | e :: r => LayoutEntry.strings e ++ LayoutEntry.stringsOfList r

end

/-- All strings of a specification. -/
def Specification.strings (s : Specification) : List String :=
  s.projectName :: s.outputDir.text :: LayoutEntry.stringsOfList s.entries

/-- The names of all fields are keys, and the types of entries could be. -/
theorem isKey_field : ∀ k ∈ ["project_name", "output_dir", "structure", "type", "name", "children",
    "content", "directory", "file"], Yaml.Scan.IsKey k := by
  have hplain : ∀ k ∈ ["project_name", "output_dir", "structure", "type", "name", "children",
      "content", "directory", "file"], Quotable k.toList ∧ k.toList.countP Yaml.isSeparator = 0 ∧
        (k.toList.flatMap Json.escapeChar).length + 2 ≤ Yaml.keyReach := by
    decide
  exact fun k hk => ⟨(hplain k hk).1, (hplain k hk).2.1, (hplain k hk).2.2⟩

mutual

theorem readable_toJson : (e : LayoutEntry) → (∀ x ∈ e.strings, Quotable x.toList) →
    e.toJson.Readable
  | .directory n c, h => by
    rw [LayoutEntry.strings, List.forall_mem_cons] at h
    simp only [LayoutEntry.toJson, Readable, ReadableMembers]
    exact ⟨isKey_field _ (by simp), (isKey_field _ (by simp)).quotable, isKey_field _ (by simp), h.1,
      isKey_field _ (by simp), readable_toJsons c h.2, trivial⟩
  | .file n c, h => by
    rw [LayoutEntry.strings, List.forall_mem_cons, List.forall_mem_singleton] at h
    simp only [LayoutEntry.toJson, Readable, ReadableMembers]
    exact ⟨isKey_field _ (by simp), (isKey_field _ (by simp)).quotable, isKey_field _ (by simp), h.1,
      isKey_field _ (by simp), h.2, trivial⟩

theorem readable_toJsons : (es : List LayoutEntry) →
    (∀ x ∈ LayoutEntry.stringsOfList es, Quotable x.toList) →
    ReadableItems (LayoutEntry.toJsons es)
  | [], _ => by
    rw [LayoutEntry.toJsons, ReadableItems]
    trivial
  | e :: r, h => by
    rw [LayoutEntry.stringsOfList, List.forall_mem_append] at h
    rw [LayoutEntry.toJsons, ReadableItems]
    exact ⟨readable_toJson e h.1, readable_toJsons r h.2⟩

end

namespace Specification

open LayoutEntry (toJsons)

/-! ### Buffers -/

mutual

/-- What is buffered of a value of strings. -/
def buffered : Json → Buffer
  | .string s => .string s
  | .array items => .sequence (bufferedItems items)
  | .object members => .map (bufferedMembers members)
  | _ => .null

def bufferedItems : List Json → List Buffer
  | [] => []
  | v :: r => buffered v :: bufferedItems r

def bufferedMembers : List (String × Json) → List (Buffer × Buffer)
  | [] => []
  | (k, v) :: r => (.string k, buffered v) :: bufferedMembers r

end

/-- How a key and its value are buffered. -/
def bufferedPair (depth : Nat) (path : String) (e : Yaml.Draft × Yaml.Draft) :
    Decoding (Buffer × Buffer) := do
  let k ← Buffer.ofDraft "any value" depth path e.1
  let v ← Buffer.ofDraft "any value" depth (Decoding.keyPath path e.1) e.2
  pure (k, v)

theorem gives_ofDraft_scalar (expected : String) (depth : Nat) (path x : String) :
    Gives (Buffer.ofDraft expected depth path (.scalar .none .other x)) (.string x) := by
  rw [Buffer.ofDraft]
  refine ((Gives.follow_scalar _ _ _).bind ?_).located path
  exact (Gives.ofExcept rfl).bind (Gives.ofExcept rfl)

mutual

/-- **A value that is not nested too deeply is buffered.** -/
theorem gives_ofDraft : (v : Json) → v.Readable → ∀ (expected : String) (depth : Nat) (path : String),
    v.nesting ≤ depth → Gives (Buffer.ofDraft expected depth path v.yamlDraft) (buffered v)
  | .string s, _, expected, depth, path, _ => by
    rw [yamlDraft, buffered]
    exact gives_ofDraft_scalar expected depth path s
  | .array items, h, expected, depth, path, hdepth => by
    rw [Readable] at h
    rw [Json.nesting] at hdepth
    obtain ⟨depth, rfl⟩ : ∃ d, depth = d + 1 := ⟨depth - 1, by omega⟩
    rw [yamlDraft, buffered, Buffer.ofDraft]
    refine ((Gives.follow_sequence _ _ _).bind ?_).located path
    exact (Gives.mapM (forall₂_items items h depth path 0 (by omega))).bind (Gives.closing.bind (.pure _))
  | .object members, h, expected, depth, path, hdepth => by
    rw [Readable] at h
    rw [Json.nesting] at hdepth
    obtain ⟨depth, rfl⟩ : ∃ d, depth = d + 1 := ⟨depth - 1, by omega⟩
    rw [yamlDraft, buffered, Buffer.ofDraft]
    refine ((Gives.follow_mapping _ _ _).bind ?_).located path
    exact (Gives.mapM (forall₂_members members h depth path (by omega))).bind
      (Gives.closing.bind (.pure _))
  | .null, h, _, _, _, _ => absurd h (by simp [Readable])
  | .bool _, h, _, _, _, _ => absurd h (by simp [Readable])
  | .number _, h, _, _, _, _ => absurd h (by simp [Readable])

theorem forall₂_items : (vs : List Json) → ReadableItems vs → ∀ (depth : Nat) (path : String) (k : Nat),
    Json.nestingItems vs ≤ depth → List.Forall₂
      (fun e b => Gives (Buffer.ofDraft "any value" depth (Decoding.itemPath path e.2) e.1) b)
      ((itemDrafts vs).zipIdx k) (bufferedItems vs)
  | [], _, _, _, _, _ => by
    rw [itemDrafts, bufferedItems]
    exact .nil
  | v :: r, h, depth, path, k, hdepth => by
    rw [ReadableItems] at h
    rw [Json.nestingItems] at hdepth
    rw [itemDrafts, bufferedItems, List.zipIdx_cons]
    exact .cons (gives_ofDraft v h.1 _ depth _ (by omega))
      (forall₂_items r h.2 depth path (k + 1) (by omega))

theorem forall₂_members : (ms : List (String × Json)) → ReadableMembers ms →
    ∀ (depth : Nat) (path : String), Json.nestingMembers ms ≤ depth →
      List.Forall₂ (fun e b => Gives (bufferedPair depth path e) b) (memberDrafts ms)
        (bufferedMembers ms)
  | [], _, _, _, _ => by
    rw [memberDrafts, bufferedMembers]
    exact .nil
  | (k, v) :: r, h, depth, path, hdepth => by
    rw [ReadableMembers] at h
    rw [Json.nestingMembers] at hdepth
    rw [memberDrafts, bufferedMembers]
    exact .cons ((gives_ofDraft_scalar _ _ _ _).bind ((gives_ofDraft v h.2.1 _ depth _ (by omega)).bind
      (.pure _))) (forall₂_members r h.2.2 depth path (by omega))

end

/-! ### Entries -/

theorem directoryOfPairs_other {x : String} {b : Buffer} {ps : List (Buffer × Buffer)}
    (hname : x ≠ "name") (hsecond : x ≠ EntryType.directory.secondField) (n : Option String)
    (c : Option (List LayoutEntry)) :
    directoryOfPairs ((.string x, b) :: ps) n c = directoryOfPairs ps n c := by
  have hfield : entryField .directory (.string x) = .ok .other := by
    rw [entryField, if_neg hname, if_neg hsecond]
  rw [directoryOfPairs, hfield]
  rfl

/-- The fields of a directory. -/
theorem directoryOfPairs_fields (n : String) {b : Buffer} {c : List LayoutEntry}
    (hc : childrenOf b = .ok c) :
    directoryOfPairs [(.string "name", .string n), (.string "children", b)] none none =
      .ok (.directory n c) := by
  have hname : entryField .directory (.string "name") = .ok .name := rfl
  have hsecond : entryField .directory (.string "children") = .ok .second := rfl
  rw [directoryOfPairs, hname]
  simp only [bind, Except.bind, Buffer.stringOf, Option.isSome_none, Bool.false_eq_true, if_false]
  rw [directoryOfPairs, hsecond]
  simp only [bind, Except.bind, hc, Option.isSome_none, Bool.false_eq_true, if_false]
  rw [directoryOfPairs]
  rfl

/-- The fields of a file. -/
theorem fileOfPairs_fields (n c : String) :
    fileOfPairs [(.string "name", .string n), (.string "content", .string c)] none none =
      .ok (.file n c) := rfl

mutual

/-- **A buffered entry is the entry.** -/
theorem bufferedEntry_toJson : (e : LayoutEntry) → bufferedEntry (buffered e.toJson) = .ok e
  | .directory n c => by
    have hchildren : childrenOf (.sequence (bufferedItems (toJsons c))) = .ok c := by
      rw [childrenOf, bufferedEntries_toJsons c]
    have hfields := (directoryOfPairs_other (x := "type") (b := .string "directory") (by decide)
      (by decide) none none).trans (directoryOfPairs_fields n hchildren)
    simp only [LayoutEntry.toJson, buffered, bufferedMembers, bufferedEntry]
    exact hfields
  | .file n c => by
    simp only [LayoutEntry.toJson, buffered, bufferedMembers, bufferedEntry]
    rfl

theorem bufferedEntries_toJsons : (es : List LayoutEntry) →
    bufferedEntries (bufferedItems (toJsons es)) = .ok es
  | [] => by
    rw [toJsons, bufferedItems, bufferedEntries]
  | e :: r => by
    rw [toJsons, bufferedItems, bufferedEntries, bufferedEntry_toJson e, bufferedEntries_toJsons r]
    rfl

end

/-- The fields of an entry besides its type. -/
def ownFields : LayoutEntry → List (Buffer × Buffer)
  | .directory n c =>
    [(.string "name", .string n), (.string "children", .sequence (bufferedItems (toJsons c)))]
  | .file n c => [(.string "name", .string n), (.string "content", .string c)]

def typeOf : LayoutEntry → EntryType
  | .directory _ _ => .directory
  | .file _ _ => .file

theorem toEntry_ownFields (e : LayoutEntry) :
    (EntryBody.fields (ownFields e)).toEntry (typeOf e) = .ok e := by
  cases e with
  | directory n c =>
    exact directoryOfPairs_fields n (by rw [childrenOf, bufferedEntries_toJsons c])
  | file n c => exact fileOfPairs_fields n c

section

variable {depth : Nat} {path x : String} {d : Yaml.Draft} {r : List (Yaml.Draft × Yaml.Draft)}
  {t : Option EntryType} {acc : List (Buffer × Buffer)}

theorem entryFields_type :
    entryFields depth path ((.scalar .none .other typeField, d) :: r) none acc =
      entryType (Decoding.keyPath path (.scalar .none .other typeField)) d >>= fun kind =>
        entryFields depth path r (some kind) acc := by
  rw [entryFields, (gives_ofDraft_scalar _ _ _ _).bind_eq]
  simp only [if_true, Option.isSome_none, Bool.false_eq_true, if_false]

theorem entryFields_other (hx : x ≠ typeField) :
    entryFields depth path ((.scalar .none .other x, d) :: r) t acc =
      Buffer.ofDraft "any value" depth (Decoding.keyPath path (.scalar .none .other x)) d >>= fun b =>
        entryFields depth path r t ((.string x, b) :: acc) := by
  rw [entryFields, (gives_ofDraft_scalar _ _ _ _).bind_eq]
  simp only [if_neg hx]

end

/-- The JSON of an entry: its type, its name, and its children or its content. -/
theorem exists_toJson (e : LayoutEntry) : ∃ t k v, e.toJson =
    .object [("type", .string t), ("name", .string e.name), (k, v)] ∧
      EntryType.ofName t = .ok (typeOf e) ∧ k ≠ typeField ∧
      ownFields e = [(.string "name", .string e.name), (.string k, buffered v)] := by
  cases e with
  | directory n c =>
    exact ⟨_, _, _, by rw [LayoutEntry.toJson]; rfl, rfl, by decide, by simp [ownFields, buffered]; rfl⟩
  | file n c =>
    exact ⟨_, _, _, by rw [LayoutEntry.toJson]; rfl, rfl, by decide, by simp [ownFields, buffered]; rfl⟩

/-- The type and the name of an entry are nothing to go into. -/
theorem entryFields_members {depth : Nat} {path t n k : String} {v : Json} {kind : EntryType}
    (htype : EntryType.ofName t = .ok kind) (hk : k ≠ typeField) :
    entryFields depth path
        (memberDrafts [("type", .string t), ("name", .string n), (k, v)]) none [] =
      Buffer.ofDraft "any value" depth (Decoding.keyPath path (.scalar .none .other k)) v.yamlDraft >>=
        fun b => pure (some kind, [(.string "name", .string n), (.string k, b)]) := by
  have hkind : Gives (entryType (Decoding.keyPath path (.scalar .none .other typeField))
      (.scalar .none .other t)) kind :=
    ((Gives.string _ _ _ _ _).bind (.ofExcept htype)).located _
  simp only [memberDrafts, yamlDraft]
  refine entryFields_type.trans ?_
  rw [hkind.bind_eq, entryFields_other (by decide), (gives_ofDraft_scalar _ _ _ _).bind_eq,
    entryFields_other hk]
  simp only [entryFields, List.reverse_cons, List.reverse_nil, List.nil_append, List.cons_append]

/-- **An entry is read as far as its type**, which stands in front and is not buffered. -/
theorem gives_entryParts (e : LayoutEntry) (he : e.toJson.Readable) {depth : Nat}
    (hdepth : e.toJson.nesting ≤ depth) (path : String) :
    Gives (entryParts depth path e.toJson.yamlDraft) (typeOf e, .fields (ownFields e)) := by
  obtain ⟨t, k, v, hjson, htype, hk, hfields⟩ := exists_toJson e
  rw [hjson] at he hdepth ⊢
  simp only [Readable, ReadableMembers] at he
  simp only [Json.nesting, Json.nestingMembers] at hdepth
  obtain ⟨depth, rfl⟩ : ∃ d, depth = d + 1 := ⟨depth - 1, by omega⟩
  have hread : Gives (entryFields depth path (memberDrafts
      [("type", .string t), ("name", .string e.name), (k, v)]) none [])
      (some (typeOf e), ownFields e) := by
    rw [entryFields_members htype hk, (gives_ofDraft v he.2.2.2.2.2.1 _ depth _ (by omega)).bind_eq,
      hfields]
    exact .pure _
  rw [yamlDraft, entryParts]
  refine ((Gives.follow_mapping _ _ _).bind ?_).located path
  exact hread.bind (Gives.closing.bind (.pure _))

/-- How an entry is read in its place. -/
def entryAt (depth : Nat) (path : String) (e : Yaml.Draft × Nat) : Decoding LayoutEntry := do
  let (t, body) ← entryParts depth (Decoding.itemPath path e.2) e.1
  Decoding.ofExcept (body.toEntry t)

theorem forall₂_entries : (es : List LayoutEntry) → ReadableItems (toJsons es) →
    ∀ (depth : Nat) (path : String) (k : Nat), Json.nestingItems (toJsons es) ≤ depth →
    List.Forall₂ (fun p e => Gives (entryAt depth path p) e) ((itemDrafts (toJsons es)).zipIdx k) es
  | [], _, _, _, _, _ => by
    rw [toJsons, itemDrafts]
    exact .nil
  | e :: r, h, depth, path, k, hdepth => by
    rw [toJsons, ReadableItems] at h
    rw [toJsons, Json.nestingItems] at hdepth
    rw [toJsons, itemDrafts, List.zipIdx_cons]
    exact .cons ((gives_entryParts e h.1 (by omega) _).bind (.ofExcept (toEntry_ownFields e)))
      (forall₂_entries r h.2 depth path (k + 1) (by omega))

theorem gives_structureOf {es : List LayoutEntry} (h : ReadableItems (toJsons es)) (depth : Nat)
    (hdepth : Json.nestingItems (toJsons es) + 1 ≤ depth) (path : String) :
    Gives (structureOf depth path (Json.array (toJsons es)).yamlDraft) es := by
  obtain ⟨depth, rfl⟩ : ∃ d, depth = d + 1 := ⟨depth - 1, by omega⟩
  rw [yamlDraft, structureOf]
  refine ((Gives.follow_sequence _ _ _).bind ?_).located path
  exact (Gives.mapM (forall₂_entries es h depth path 0 (by omega))).bind
    (Gives.closing.bind (.pure _))

section

variable {p : Parts} (path x : String)

theorem gives_read_projectName (h : p.projectName = none) :
    Gives (p.read "project_name" (path, .scalar .none .other x))
      { p with projectName := some x } := by
  rw [Parts.read, if_pos rfl, h]
  exact (Gives.string _ _ _ _ _).bind (.pure _)

theorem gives_read_outputDir (h : p.outputDir = none) :
    Gives (p.read "output_dir" (path, .scalar .none .other x)) { p with outputDir := some x } := by
  rw [Parts.read, if_neg (by decide), if_pos rfl, h]
  exact (Gives.string _ _ _ _ _).bind (.pure _)

theorem gives_read_structure {d : Yaml.Draft} {es : List LayoutEntry} (h : p.entries = none)
    (hes : Gives (structureOf (Decoding.depthLimit - 1) path d) es) :
    Gives (p.read "structure" (path, d)) { p with entries := some es } := by
  rw [Parts.read, if_neg (by decide), if_neg (by decide), if_pos rfl, h]
  exact hes.bind (.pure _)

end

/-- The fields of a specification are read one after the other. -/
theorem gives_record (s : Specification) (h : ReadableItems (toJsons s.entries))
    (hdepth : s.toJson.nesting ≤ Decoding.depthLimit) :
    Gives (Decoding.record "struct InfrastructureSpec" Parts.read Parts.none Parts.finish
      (some s.toJson.yamlDraft)) s := by
  rw [toJson, Json.nesting] at hdepth
  simp only [Json.nestingMembers, Json.nesting] at hdepth
  have hentries := gives_structureOf h (Decoding.depthLimit - 1) (by omega)
    (Decoding.keyPath "" (.scalar .none .other "structure"))
  rw [toJson, yamlDraft, Decoding.record]
  refine Gives.located "" ?_
  have hfields : Gives (Decoding.fields "" Parts.read (memberDrafts [("project_name", .string s.projectName),
      ("output_dir", .string s.outputDir.text), ("structure", .array (toJsons s.entries))]) Parts.none)
      ⟨some s.projectName, some s.outputDir.text, some s.entries⟩ := by
    simp only [memberDrafts, Decoding.fields]
    refine (Gives.string _ _ _ _ _).bind ((gives_read_projectName _ _ rfl).bind ?_)
    refine (Gives.string _ _ _ _ _).bind ((gives_read_outputDir _ _ rfl).bind ?_)
    refine (Gives.string _ _ _ _ _).bind ((gives_read_structure _ rfl hentries).bind ?_)
    exact .pure _
  exact hfields.bind (Gives.closing.bind (.ofExcept rfl))

theorem readable_entries (s : Specification) (hstrings : ∀ x ∈ s.strings, Quotable x.toList) :
    ReadableItems (toJsons s.entries) := by
  rw [strings, List.forall_mem_cons, List.forall_mem_cons] at hstrings
  exact readable_toJsons s.entries hstrings.2.2

/-- The JSON text of a specification is one YAML document. -/
theorem read_compact (s : Specification) (hstrings : ∀ x ∈ s.strings, Quotable x.toList) :
    (Yaml.Document.read s.toJson.compact).root = some s.toJson.yamlDraft ∧
      (Yaml.Document.read s.toJson.compact).whole = true := by
  have hentries := readable_entries s hstrings
  rw [strings, List.forall_mem_cons, List.forall_mem_cons] at hstrings
  refine Yaml.Document.read_compact ?_
  simp only [Readable, ReadableMembers]
  exact ⟨isKey_field _ (by simp), hstrings.1, isKey_field _ (by simp), hstrings.2.1,
    isKey_field _ (by simp), hentries, trivial⟩

/-- **A specification that is not nested too deeply is read back.** -/
theorem ofYaml_shallow (s : Specification) (hstrings : ∀ x ∈ s.strings, Quotable x.toList)
    (hnesting : s.toJson.nesting ≤ Decoding.depthLimit) : ofYaml s.toJson.compact = .ok s := by
  obtain ⟨hroot, hwhole⟩ := read_compact s hstrings
  have hrecord := gives_record s (readable_entries s hstrings) hnesting
  have hrun : Decoding.run (Decoding.record "struct InfrastructureSpec" Parts.read Parts.none
      Parts.finish) s.toJson.compact = .ok s := by
    rw [Decoding.run, hroot, hrecord]
    simp only
    rw [if_pos hwhole]
  rw [ofYaml, hrun]
  rfl

end Specification

end Scaffold
