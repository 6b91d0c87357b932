import Scaffold.Proofs.Specification.Yaml

/-!
# Specifications that are nested too deeply

A specification whose JSON text nests arrays and objects deeper than the reader goes is not read
(`Specification.ofYaml_deep`). With it the compact JSON text of a specification is read back exactly if
it is nested at most 128 levels deep (`Specification.ofYaml_compact`).
-/

namespace Scaffold.Specification

open Yaml (Gives Fails Decoding Quotable)
open Json (Readable ReadableItems ReadableMembers yamlDraft itemDrafts memberDrafts)
open LayoutEntry (toJsons)

/-- Of the items of a list, none deeper than `nesting`, each gives a value or fails, and one fails if
`nesting` is more than `depth`. -/
structure Settled {α β : Type} (f : α → Decoding β) (xs : List α) (depth nesting : Nat) : Prop where
  each : ∀ x ∈ xs, (∃ y, Gives (f x) y) ∨ Fails (f x)
  deep : depth < nesting → ∃ x ∈ xs, Fails (f x)

namespace Settled

variable {α β : Type} {f : α → Decoding β} {x : α} {xs : List α} {depth m n : Nat}

theorem nil : Settled f [] depth 0 :=
  ⟨fun _ hx => absurd hx List.not_mem_nil, fun h => absurd h (Nat.not_lt_zero _)⟩

theorem cons (hshallow : m ≤ depth → ∃ y, Gives (f x) y) (hdeep : depth < m → Fails (f x))
    (h : Settled f xs depth n) : Settled f (x :: xs) depth (max m n) where
  each y hy := by
    rcases List.mem_cons.1 hy with rfl | hy
    · rcases Nat.lt_or_ge depth m with hlt | hge
      · exact .inr (hdeep hlt)
      · exact .inl (hshallow hge)
    · exact h.each y hy
  deep hlt := by
    rcases (by omega : depth < m ∨ depth < n) with hlt | hlt
    · exact ⟨x, List.mem_cons_self, hdeep hlt⟩
    · obtain ⟨y, hy, hfails⟩ := h.deep hlt
      exact ⟨y, List.mem_cons_of_mem _ hy, hfails⟩

theorem fails (h : Settled f xs depth n) (hlt : depth < n) : Fails (xs.mapM f) :=
  Fails.mapM h.each (h.deep hlt)

end Settled

mutual

/-- **A value that is nested too deeply is not buffered.** -/
theorem fails_ofDraft : (v : Json) → v.Readable → ∀ (expected : String) (depth : Nat) (path : String),
    depth < v.nesting → Fails (Buffer.ofDraft expected depth path v.yamlDraft)
  | .string _, _, _, _, _, hdepth => absurd hdepth (by simp [Json.nesting])
  | .array items, h, expected, depth, path, hdepth => by
    rw [Readable] at h
    rw [Json.nesting] at hdepth
    -- at the limit a container is refused before its items are read
    cases depth with
    | zero =>
      rw [yamlDraft, Buffer.ofDraft]
      exact (Fails.after (Gives.follow_sequence _ _ _) (Fails.fail _)).located path
    | succ depth =>
      rw [yamlDraft, Buffer.ofDraft]
      refine (Fails.after (Gives.follow_sequence _ _ _) ?_).located path
      exact ((settled_items items h depth path 0).fails (Nat.lt_of_succ_lt_succ hdepth)).bind _
  | .object members, h, expected, depth, path, hdepth => by
    rw [Readable] at h
    rw [Json.nesting] at hdepth
    cases depth with
    | zero =>
      rw [yamlDraft, Buffer.ofDraft]
      exact (Fails.after (Gives.follow_mapping _ _ _) (Fails.fail _)).located path
    | succ depth =>
      rw [yamlDraft, Buffer.ofDraft]
      refine (Fails.after (Gives.follow_mapping _ _ _) ?_).located path
      exact ((settled_members members h depth path).fails (Nat.lt_of_succ_lt_succ hdepth)).bind _
  | .null, h, _, _, _, _ => absurd h (by simp [Readable])
  | .bool _, h, _, _, _, _ => absurd h (by simp [Readable])
  | .number _, h, _, _, _, _ => absurd h (by simp [Readable])

theorem settled_items : (vs : List Json) → ReadableItems vs → ∀ (depth : Nat) (path : String) (k : Nat),
    Settled (fun e : Yaml.Draft × Nat =>
        Buffer.ofDraft "any value" depth (Decoding.itemPath path e.2) e.1)
      ((itemDrafts vs).zipIdx k) depth (Json.nestingItems vs)
  | [], _, _, _, _ => by
    rw [itemDrafts, Json.nestingItems]
    exact .nil
  | v :: r, h, depth, path, k => by
    rw [ReadableItems] at h
    rw [itemDrafts, Json.nestingItems, List.zipIdx_cons]
    exact .cons (fun hle => ⟨_, gives_ofDraft v h.1 _ depth _ hle⟩)
      (fun hlt => fails_ofDraft v h.1 _ depth _ hlt) (settled_items r h.2 depth path (k + 1))

theorem settled_members : (ms : List (String × Json)) → ReadableMembers ms →
    ∀ (depth : Nat) (path : String),
    Settled (bufferedPair depth path) (memberDrafts ms) depth (Json.nestingMembers ms)
  | [], _, _, _ => by
    rw [memberDrafts, Json.nestingMembers]
    exact .nil
  | (k, v) :: r, h, depth, path => by
    rw [ReadableMembers] at h
    rw [memberDrafts, Json.nestingMembers]
    refine .cons (fun hle => ⟨_, (gives_ofDraft_scalar _ _ _ _).bind
      ((gives_ofDraft v h.2.1 _ depth _ hle).bind (.pure _))⟩) (fun hlt => ?_)
      (settled_members r h.2.2 depth path)
    exact Fails.after (gives_ofDraft_scalar _ _ _ _) ((fails_ofDraft v h.2.1 _ depth _ hlt).bind _)

end

/-! ### Entries -/

/-- **An entry that is nested too deeply is not read.** -/
theorem fails_entryParts (e : LayoutEntry) (he : e.toJson.Readable) {depth : Nat}
    (hdepth : depth < e.toJson.nesting) (path : String) :
    Fails (entryParts depth path e.toJson.yamlDraft) := by
  obtain ⟨t, k, v, hjson, htype, hk, -⟩ := exists_toJson e
  rw [hjson] at he hdepth ⊢
  simp only [Readable, ReadableMembers] at he
  simp only [Json.nesting, Json.nestingMembers] at hdepth
  rw [yamlDraft, entryParts]
  refine (Fails.after (Gives.follow_mapping _ _ _) ?_).located path
  cases depth with
  | zero => exact Fails.fail _
  | succ depth =>
    refine Fails.bind ?_ _
    rw [entryFields_members htype hk]
    exact (fails_ofDraft v he.2.2.2.2.2.1 _ depth _ (by omega)).bind _

theorem settled_entries : (es : List LayoutEntry) → ReadableItems (toJsons es) →
    ∀ (depth : Nat) (path : String) (k : Nat),
    Settled (entryAt depth path) ((itemDrafts (toJsons es)).zipIdx k) depth
      (Json.nestingItems (toJsons es))
  | [], _, _, _, _ => by
    rw [toJsons, itemDrafts, Json.nestingItems]
    exact .nil
  | e :: r, h, depth, path, k => by
    rw [toJsons, ReadableItems] at h
    rw [toJsons, itemDrafts, Json.nestingItems, List.zipIdx_cons]
    exact .cons
      (fun hle => ⟨e, (gives_entryParts e h.1 hle _).bind (.ofExcept (toEntry_ownFields e))⟩)
      (fun hlt => (fails_entryParts e h.1 hlt _).bind _) (settled_entries r h.2 depth path (k + 1))

theorem fails_structureOf {es : List LayoutEntry} (h : ReadableItems (toJsons es)) (depth : Nat)
    (hdepth : depth < Json.nestingItems (toJsons es)) (path : String) :
    Fails (structureOf (depth + 1) path (Json.array (toJsons es)).yamlDraft) := by
  rw [yamlDraft, structureOf]
  refine (Fails.after (Gives.follow_sequence _ _ _) ?_).located path
  exact ((settled_entries es h depth path 0).fails hdepth).bind _

theorem fails_record (s : Specification) (h : ReadableItems (toJsons s.entries))
    (hdepth : Decoding.depthLimit < s.toJson.nesting) :
    Fails (Decoding.record "struct InfrastructureSpec" Parts.read Parts.none Parts.finish
      (some s.toJson.yamlDraft)) := by
  rw [toJson, Json.nesting] at hdepth
  simp only [Json.nestingMembers, Json.nesting, Decoding.depthLimit] at hdepth
  have hentries := fails_structureOf h 126 (by omega)
    (Decoding.keyPath "" (.scalar .none .other "structure"))
  rw [toJson, yamlDraft, Decoding.record]
  refine Fails.located "" ?_
  have hfields : Fails (Decoding.fields "" Parts.read (memberDrafts [("project_name", .string s.projectName),
      ("output_dir", .string s.outputDir.text), ("structure", .array (toJsons s.entries))])
      Parts.none) := by
    simp only [memberDrafts, Decoding.fields]
    refine Fails.after (Gives.string _ _ _ _ _) (Fails.after (gives_read_projectName _ _ rfl) ?_)
    refine Fails.after (Gives.string _ _ _ _ _) (Fails.after (gives_read_outputDir _ _ rfl) ?_)
    refine Fails.after (Gives.string _ _ _ _ _) (Fails.bind ?_ _)
    exact hentries.bind _
  exact hfields.bind _

/-- **A specification that is nested too deeply is not read.** -/
theorem ofYaml_deep (s : Specification) (hstrings : ∀ x ∈ s.strings, Quotable x.toList)
    (hnesting : Decoding.depthLimit < s.toJson.nesting) : ∃ f, ofYaml s.toJson.compact = .error f := by
  obtain ⟨t, ht⟩ := fails_record s (readable_entries s hstrings) hnesting
    (Yaml.Document.read s.toJson.compact) 0
  have hrun : Decoding.run (Decoding.record "struct InfrastructureSpec" Parts.read Parts.none
      Parts.finish) s.toJson.compact = .error t := by
    rw [Decoding.run, (read_compact s hstrings).1, ht]
  exact ⟨_, by rw [ofYaml, hrun]; rfl⟩

/-- **The compact JSON text of a specification is read back as the specification**, if YAML reads its
strings as they are and arrays and objects are nested at most 128 deep. If they are nested deeper, it is
not read. -/
theorem ofYaml_compact (s : Specification) (hstrings : ∀ x ∈ s.strings, Quotable x.toList) :
    (s.toJson.nesting ≤ 128 → ofYaml s.toJson.compact = .ok s) ∧
      (128 < s.toJson.nesting → ∃ f, ofYaml s.toJson.compact = .error f) :=
  ⟨ofYaml_shallow s hstrings, ofYaml_deep s hstrings⟩

/-- A specification of one file in so many directories, each in the other. -/
def fileWithin (n : Nat) : Specification :=
  ⟨"p", ⟨"o"⟩, n.repeat (fun es => [.directory "d" es]) [.file "f" ""]⟩

/-- Escapes, a line separator with no blank next to it, and what looks like YAML. -/
def quotedSample : Specification :=
  ⟨"- demo: \x7b", ⟨"out/'\"#"⟩, [.directory "a\u0001&b" [.file "f" "\"x\"\r\n\t---\u2028---\n", .file "%" ""],
    .directory "" []]⟩

theorem ofYaml_compact_quoted : ((∀ x ∈ quotedSample.strings, Quotable x.toList) ∧
    quotedSample.toJson.nesting ≤ 128 ∧ ofYaml quotedSample.toJson.compact = .ok quotedSample) ∧
    (∀ x ∈ (fileWithin 63).strings, Quotable x.toList) ∧ 128 < (fileWithin 63).toJson.nesting ∧
    ∃ f, ofYaml (fileWithin 63).toJson.compact = .error f := by
  have hstrings : ∀ x ∈ quotedSample.strings, Quotable x.toList := by decide +kernel
  have hnesting : quotedSample.toJson.nesting ≤ 128 := by decide +kernel
  have hdeep : ∀ x ∈ (fileWithin 63).strings, Quotable x.toList := by decide +kernel
  have hlimit : 128 < (fileWithin 63).toJson.nesting := by decide +kernel
  exact ⟨⟨hstrings, hnesting, (ofYaml_compact quotedSample hstrings).1 hnesting⟩,
    hdeep, hlimit, (ofYaml_compact (fileWithin 63) hdeep).2 hlimit⟩

/-- A specification of one file. -/
def oneFile (content : String) : Specification := ⟨"p", ⟨"o"⟩, [.file "f" content]⟩

/-- What is read as the content of the only file, if it is read. -/
def contentRead (s : Specification) : Option String :=
  match ofYaml s.toJson.compact with
  | .ok ⟨_, _, [.file _ c]⟩ => some c
  | _ => none

set_option maxRecDepth 100000 in
/-- A next line is read as a blank, and a blank next to a line separator is dropped. U+007F may not stand
in YAML, a line may not begin with the mark of a document, and 63 directories around a file are one too many. -/
theorem altered_or_rejected : (contentRead (oneFile "a\u0085b") = some "a b" ∧
    contentRead (oneFile "a \u2028b") = some "a\u2028b" ∧
    contentRead (oneFile "a\u2028 b") = some "a\u2028b") ∧
    ((ofYaml (oneFile "\u007f").toJson.compact).isOk = false ∧
      (ofYaml (oneFile "\u2028--- ").toJson.compact).isOk = false ∧
      (ofYaml (fileWithin 63).toJson.compact).isOk = false) ∧
    ¬ ∀ s : Specification, ofYaml s.toJson.compact = .ok s := by
  have hnested : (ofYaml (fileWithin 63).toJson.compact).isOk = false := by
    obtain ⟨f, hf⟩ := ofYaml_deep (fileWithin 63) (by decide +kernel) (by decide +kernel)
    rw [hf]
    rfl
  have hblank : contentRead (oneFile "a\u0085b") = some "a b" := by decide +kernel
  refine ⟨⟨hblank, by decide +kernel, by decide +kernel⟩, ⟨by decide +kernel, by decide +kernel, hnested⟩,
    fun h => ?_⟩
  rw [h (fileWithin 63)] at hnested
  cases hnested

end Scaffold.Specification
