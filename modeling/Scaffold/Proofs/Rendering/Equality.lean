import Scaffold.Proofs.Rendering.Context
import Scaffold.Proofs.Results
import Scaffold.Proofs.Store.Inquiry
import Scaffold.Proofs.Template.Rendered
import Scaffold.Proofs.Tree.Attributes
import Scaffold.Pipeline

/-!
# Rendering trees that are the same

The template for a node sees the attributes of the node as names, which have no order, but those
of its children and further down also as lists of keys. So trees that are the same are rendered
alike if the nodes below the root are `StoredAlike`, whatever the order of the attributes of the
root (`Node.render_of_same`). They need not be if a child lists its attributes in another order,
or if a zero has another sign: such values are equal, but are written differently.
-/

namespace Scaffold

open Template

/-! ### Values that are the same -/

/-- Numbers that are both negative or both not. -/
def JsonNumber.SameSign : JsonNumber → JsonNumber → Prop
  | .real x, .real y => x.isNegative = y.isNegative
  | _, _ => True

/-- A zero is determined by its sign. -/
theorem Number.Binary64.eq_of_isZero {x y : Number.Binary64} (hx : x.isZero = true)
    (hy : y.isZero = true) (h : x.isNegative = y.isNegative) : x = y := by
  obtain ⟨b⟩ := x
  obtain ⟨c⟩ := y
  have hpow : pow2 63 = 9223372036854775808 := by decide
  simp only [isZero, hpow, beq_iff_eq] at hx hy
  simp only [isNegative, hpow] at h
  rw [Bool.eq_iff_iff, beq_iff_eq, beq_iff_eq] at h
  have hb := b.toNat_lt
  have hc := c.toNat_lt
  rw [UInt64.toNat_inj.1 (show b.toNat = c.toNat by omega)]

theorem JsonNumber.eq_of_same {m n : JsonNumber} (h : m.same n = true) (hs : m.SameSign n) :
    m = n := by
  cases m with
  | int i =>
    cases n with
    | int j => simpa [same] using h
    | real y => cases h
  | real x =>
    cases n with
    | int j => cases h
    | real y =>
      simp only [same, Number.Binary64.numEq, Bool.and_eq_true, Bool.or_eq_true, beq_iff_eq] at h
      rcases h.2 with rfl | ⟨hx, hy⟩
      · rfl
      · rw [Number.Binary64.eq_of_isZero hx hy hs]

namespace Json

mutual

/-- **Numbers at the same places have the same sign.** -/
def SameSigns : Json → Json → Prop
  | .number m, .number n => m.SameSign n
  | .array vs, .array ws => SameSignsOfItems vs ws
  | .object ms, .object ns => SameSignsOfMembers ms ns
  | _, _ => True

def SameSignsOfItems : List Json → List Json → Prop
  | v :: r, w :: s => SameSigns v w ∧ SameSignsOfItems r s
  | _, _ => True

def SameSignsOfMembers : List (String × Json) → List (String × Json) → Prop
  | (_, v) :: r, (_, w) :: s => SameSigns v w ∧ SameSignsOfMembers r s
  | _, _ => True

end

mutual

theorem SameSigns.refl : (v : Json) → v.SameSigns v
  | .null | .bool _ | .string _ => by simp [SameSigns]
  | .number m => by
    rw [SameSigns]
    cases m with
    | int i => exact trivial
    | real x => exact rfl
  | .array vs => by
    rw [SameSigns]
    exact SameSignsOfItems.refl vs
  | .object ms => by
    rw [SameSigns]
    exact SameSignsOfMembers.refl ms

theorem SameSignsOfItems.refl : (vs : List Json) → SameSignsOfItems vs vs
  | [] => by simp [SameSignsOfItems]
  | v :: r => by
    rw [SameSignsOfItems]
    exact ⟨SameSigns.refl v, SameSignsOfItems.refl r⟩

theorem SameSignsOfMembers.refl : (ms : List (String × Json)) → SameSignsOfMembers ms ms
  | [] => by simp [SameSignsOfMembers]
  | (k, v) :: r => by
    rw [SameSignsOfMembers]
    exact ⟨SameSigns.refl v, SameSignsOfMembers.refl r⟩

end

mutual

/-- **Equal values are identical but for the signs of zeros.** -/
theorem eq_of_same : (v w : Json) → v.same w = true → v.SameSigns w → v = w
  | .null, w, h, _ => by cases w <;> simp_all [same]
  | .bool b, w, h, _ => by cases w <;> simp_all [same]
  | .string s, w, h, _ => by cases w <;> simp_all [same]
  | .number m, w, h, hs => by
    cases w with
    | number n =>
      rw [same] at h
      rw [SameSigns] at hs
      rw [JsonNumber.eq_of_same h hs]
    | _ => simp [same] at h
  | .array vs, w, h, hs => by
    cases w with
    | array ws =>
      rw [same] at h
      rw [SameSigns] at hs
      rw [eq_of_sameItems vs ws h hs]
    | _ => simp [same] at h
  | .object ms, w, h, hs => by
    cases w with
    | object ns =>
      rw [same] at h
      rw [SameSigns] at hs
      rw [eq_of_sameMembers ms ns h hs]
    | _ => simp [same] at h

theorem eq_of_sameItems : (vs ws : List Json) → sameItems vs ws = true → SameSignsOfItems vs ws →
    vs = ws
  | [], ws, h, _ => by cases ws <;> simp_all [sameItems]
  | v :: r, [], h, _ => by simp [sameItems] at h
  | v :: r, w :: s, h, hs => by
    rw [sameItems, Bool.and_eq_true] at h
    rw [SameSignsOfItems] at hs
    rw [eq_of_same v w h.1 hs.1, eq_of_sameItems r s h.2 hs.2]

theorem eq_of_sameMembers : (ms ns : List (String × Json)) → sameMembers ms ns = true →
    SameSignsOfMembers ms ns → ms = ns
  | [], ns, h, _ => by cases ns <;> simp_all [sameMembers]
  | (k, v) :: r, [], h, _ => by simp [sameMembers] at h
  | (k, v) :: r, (l, w) :: s, h, hs => by
    rw [sameMembers, Bool.and_eq_true, Bool.and_eq_true, beq_iff_eq] at h
    rw [SameSignsOfMembers] at hs
    rw [h.1.1, eq_of_same v w h.1.2 hs.1, eq_of_sameMembers r s h.2 hs.2]

end

end Json

/-! ### Attributes that are the same -/

namespace Attributes

variable {a b : Attributes}

/-- Numbers in values of the same name have the same sign. -/
def SameSigns (a b : Attributes) : Prop :=
  ∀ k v w, a.get? k = some v → b.get? k = some w → v.SameSigns w

/-- The signs are the same if the entries are, in whatever order. -/
theorem SameSigns.of_perm (h : a.entries.Perm b.entries) : a.SameSigns b := by
  intro k v w hv hw
  have hb : b.get? k = some v := get?_eq_some_iff.2 (h.mem_iff.1 (get?_eq_some_iff.1 hv))
  rw [hw] at hb
  rw [Option.some.inj hb]
  exact .refl v

/-- **Attributes that are the same** give the same value for every name. -/
theorem get?_of_same (h : a.same b = true) (hs : a.SameSigns b) (k : String) :
    a.get? k = b.get? k := by
  have hfound : ∀ k v, a.get? k = some v → b.get? k = some v := by
    intro k v hv
    obtain ⟨w, hw, hvw⟩ := exists_of_same h (get?_eq_some_iff.1 hv)
    rw [hw, Json.eq_of_same v w hvw (hs k v w hv hw)]
  cases ha : a.get? k with
  | some v => exact (hfound k v ha).symm
  | none => exact (get?_eq_none_of_same h ha).symm

/-- **They are identical if their keys are in the same order.** -/
theorem eq_of_same (h : a.same b = true) (hs : a.SameSigns b) (hk : a.keys = b.keys) : a = b := by
  have hentries := Entries.eq_of_keys a.distinct hk (get?_of_same h hs)
  obtain ⟨es, _⟩ := a
  obtain ⟨fs, _⟩ := b
  obtain rfl : es = fs := hentries
  rfl

end Attributes

namespace Node

mutual

/-- **Trees whose nodes list their keys in the same order**, with numbers of the same sign. -/
def StoredAlike : Node → Node → Prop
  | mk _ a c _ _, mk _ b d _ _ => a.keys = b.keys ∧ a.SameSigns b ∧ StoredAlikeList c d

def StoredAlikeList : List Node → List Node → Prop
  | n :: r, m :: s => StoredAlike n m ∧ StoredAlikeList r s
  | _, _ => True

end

mutual

theorem StoredAlike.refl : (n : Node) → n.StoredAlike n
  | mk _ a c _ _ => by
    rw [StoredAlike]
    exact ⟨rfl, .of_perm (List.Perm.refl _), StoredAlikeList.refl c⟩

theorem StoredAlikeList.refl : (ns : List Node) → StoredAlikeList ns ns
  | [] => by simp [StoredAlikeList]
  | n :: r => by
    rw [StoredAlikeList]
    exact ⟨StoredAlike.refl n, StoredAlikeList.refl r⟩

end

mutual

theorem eq_of_same : (n m : Node) → n.same m = true → n.StoredAlike m → n = m
  | mk t a c _ _, mk u b d _ _, h, hs => by
    rw [same, Bool.and_eq_true, Bool.and_eq_true, beq_iff_eq] at h
    rw [StoredAlike] at hs
    obtain rfl := h.1.1
    obtain rfl := Attributes.eq_of_same h.1.2 hs.2.1 hs.1
    obtain rfl := eq_of_sameList c d h.2 hs.2.2
    rfl

theorem eq_of_sameList : (ns ms : List Node) → sameList ns ms = true → StoredAlikeList ns ms →
    ns = ms
  | [], ms, h, _ => by cases ms <;> simp_all [sameList]
  | n :: r, [], h, _ => by simp [sameList] at h
  | n :: r, m :: s, h, hs => by
    rw [sameList, Bool.and_eq_true] at h
    rw [StoredAlikeList] at hs
    rw [eq_of_same n m h.1 hs.1, eq_of_sameList r s h.2 hs.2]

end

/-! ### Rendering -/

theorem rendering_congr {a b : Node} (ht : a.tag = b.tag) (hc : a.children = b.children)
    (h : ∀ k, a.attribute? k = b.attribute? k) (mode : String) :
    a.rendering mode = b.rendering mode := by
  have hheight : a.height = b.height := by
    obtain ⟨t, a, c, _, _⟩ := a
    obtain ⟨u, b, d, _, _⟩ := b
    obtain rfl : c = d := hc
    rw [height, height]
  rw [rendering, rendering, ht, hheight, context_congr hc h]

/-- **Trees that are the same are rendered alike** in every mode and from every repository, to the same
text or with the same failure, if the numbers in attributes of the root have the same signs and the
nodes below it are stored alike. -/
theorem render_of_same {a b : Node} (h : a.same b = true) (hroot : a.attributes.SameSigns b.attributes)
    (hbelow : StoredAlikeList a.children b.children) (r : Repository) (mode : String) :
    (a.render r mode : Work String) = b.render r mode := by
  obtain ⟨ht, ha, hc⟩ : a.tag = b.tag ∧ a.attributes.same b.attributes = true ∧
      sameList a.children b.children = true := by
    obtain ⟨t, a, c, _, _⟩ := a
    obtain ⟨u, b, d, _, _⟩ := b
    rw [same, Bool.and_eq_true, Bool.and_eq_true, beq_iff_eq] at h
    exact ⟨h.1.1, h.1.2, h.2⟩
  have hchildren := eq_of_sameList _ _ hc hbelow
  rw [render, render, rendering_congr ht hchildren (Attributes.get?_of_same ha hroot)]

/-! ### Trees that are the same, and what is printed for them -/

/-- What is printed by a template that is a name alone. -/
theorem render_of_soleName {r : Repository} {s : Site} {n : Node} {mode name : String}
    {ms : List String} {t : Template} {v : Value} (hms : r.store.listed s.disk n.tag = .ok ms)
    (hm : mode ∈ ms) (ht : r.answer s (templateName n.tag mode) = .ok t)
    (hname : Wrapping.soleName? t = some name)
    (hv : n.context.attribute? Heap.empty name = some v) (hdefined : v ≠ .undefined false) :
    (n.render r mode s).1 = .ok (v.shown Heap.empty) := by
  rw [(n.render_apply r mode s).1, Inquiry.resultAt, eval_rendering, hms]
  simp only [List.contains_iff_mem, hm, if_true]
  rw [eval_renderNamed, ht]
  simp only
  rw [Wrapping.eval_renderTemplate_name hname hv hdefined]
  rfl

/-- Templates that print the children of a node, and an attribute. -/
def printing : Repository :=
  ⟨.memory ((MemoryStore.empty.insert "a" "children" "\x7b\x7b children \x7d\x7d").insert "a" "size"
    "\x7b\x7b size \x7d\x7d"), 0⟩

/-- The text of what stands under a name in a node that there are templates for. -/
def textUnder? (n : Node) (name : String) : Option String :=
  if n.tag = "a" then (n.context.attribute? Heap.empty name).map (Value.shown Heap.empty) else none

theorem render_printing {n : Node} {name text : String} (hname : name = "children" ∨ name = "size")
    (htext : text ≠ "") (h : n.textUnder? name = some text) :
    (n.render printing name .empty).1 = .ok text := by
  obtain ⟨ht, v, hv, rfl⟩ : n.tag = "a" ∧ ∃ v, n.context.attribute? Heap.empty name = some v ∧
      v.shown Heap.empty = text := by
    rw [textUnder?] at h
    split_ifs at h with ht
    exact ⟨ht, Option.map_eq_some_iff.1 h⟩
  have hms : printing.store.listed Disk.empty n.tag = .ok ["children", "size"] := by
    rw [ht]
    rfl
  have hread : ((printing.answer .empty (templateName n.tag name)).toOption.bind
      Wrapping.soleName?) = some name := by
    rw [ht]
    rcases hname with rfl | rfl
    · decide +kernel
    · decide +kernel
  obtain ⟨t, hanswer, hsole⟩ := Option.bind_eq_some_iff.1 hread
  refine render_of_soleName hms (by rcases hname with rfl | rfl <;> decide)
    (eq_ok_of_toOption hanswer) hsole hv ?_
  rintro rfl
  exact htext rfl

theorem rootTag_ne : "a" ≠ "" := by decide

theorem leafTag_ne : "b" ≠ "" := by decide

/-- Attributes that are not in the order of their names. -/
def leafAttributes : Attributes := ⟨[("y", .string "1"), ("x", .string "2")], by decide⟩

theorem leafAttributes_free : ∀ k ∈ leafAttributes.keys, k ∉ reservedNames := by decide

/-- A node with these attributes above a leaf. -/
def aboveLeaf (a : Attributes) (free : ∀ k ∈ a.keys, k ∉ reservedNames) : Node :=
  .mk "a" a [.mk "b" leafAttributes [] leafTag_ne leafAttributes_free] rootTag_ne free

def sized : Node := aboveLeaf ⟨[("size", .string "1"), ("kind", .null)], by decide⟩ (by decide)

def sizedLast : Node := aboveLeaf ⟨[("kind", .null), ("size", .string "1")], by decide⟩ (by decide)

/-- Two orders of the attributes of the root. -/
theorem render_of_same_sized : sized.attributes.keys ≠ sizedLast.attributes.keys ∧
    sized.same sizedLast = true ∧
    (sized.render printing "children" .empty).1 =
      .ok "[\x7b\"tag\": \"b\", \"children\": [], \"y\": \"1\", \"x\": \"2\"\x7d]" ∧
    (sized.render printing "children" : Work String) = sizedLast.render printing "children" := by
  have hsame : sized.same sizedLast = true := by decide +kernel
  exact ⟨by decide, hsame, render_printing (.inl rfl) (by decide) (by decide +kernel),
    render_of_same hsame (.of_perm (List.Perm.swap _ _ _)) (.refl _) printing "children"⟩

/-- The pipeline without a schema. -/
def printer : Pipeline := ⟨{ Config.standard with validate := false }, printing⟩

/-- What is printed for two results of reading that are the same tree. -/
theorem render_of_textUnder {x y : Except Failure Node} {name s t : String}
    (hname : name = "children" ∨ name = "size") (hs : s ≠ "") (ht : t ≠ "")
    (hx : x.toOption.bind (textUnder? · name) = some s)
    (hy : y.toOption.bind (textUnder? · name) = some t)
    (hsame : (do pure ((← x).same (← y)) : Except Failure Bool).toOption = some true) :
    ∃ m n, x = .ok m ∧ y = .ok n ∧ m.same n = true ∧
      (m.render printing name .empty).1 = .ok s ∧ (n.render printing name .empty).1 = .ok t := by
  obtain ⟨m, hm, hms⟩ := Option.bind_eq_some_iff.1 hx
  obtain ⟨n, hn, hnt⟩ := Option.bind_eq_some_iff.1 hy
  obtain rfl := eq_ok_of_toOption hm
  obtain rfl := eq_ok_of_toOption hn
  exact ⟨m, n, rfl, rfl, Option.some.inj hsame, render_printing hname hs hms,
    render_printing hname ht hnt⟩

/-- A leaf in an XML and in a JSON document. -/
def leafMarkup : String := "<a><b y='1' x='2'/></a>"

def leafObject : String := "\x7b\"tag\":\"a\",\"children\":" ++
  "[\x7b\"tag\":\"b\",\"attributes\":\x7b\"y\":\"1\",\"x\":\"2\"\x7d\x7d]\x7d"

/-- A node with a number. -/
def numberObject (number : String) : String :=
  "\x7b\"tag\":\"a\",\"attributes\":\x7b\"size\":" ++ number ++ "\x7d\x7d"

/-- A leaf whose attributes come in another order from the other document, and the two zeros. -/
theorem render_of_same_reordered :
    (∃ m n, (printer.parse leafMarkup .xml .empty).1 = .ok m ∧
      (printer.parse leafObject .json .empty).1 = .ok n ∧ m.same n = true ∧
      (m.render printing "children" .empty).1 =
        .ok "[\x7b\"tag\": \"b\", \"children\": [], \"y\": \"1\", \"x\": \"2\"\x7d]" ∧
      (n.render printing "children" .empty).1 =
        .ok "[\x7b\"tag\": \"b\", \"children\": [], \"x\": \"2\", \"y\": \"1\"\x7d]") ∧
    ∃ m n, (printer.parse (numberObject "0.0") .json .empty).1 = .ok m ∧
      (printer.parse (numberObject "-0.0") .json .empty).1 = .ok n ∧ m.same n = true ∧
      (m.render printing "size" .empty).1 = .ok "0.0" ∧
      (n.render printing "size" .empty).1 = .ok "-0.0" := by
  constructor
  · exact render_of_textUnder (.inl rfl) (by decide) (by decide) (by decide +kernel)
      (by decide +kernel) (by decide +kernel)
  · exact render_of_textUnder (.inr rfl) (by decide) (by decide) (by decide +kernel)
      (by decide +kernel) (by decide +kernel)

end Node

end Scaffold
