import Mathlib.Data.List.Nodup
import Multimeter.Proofs.Json.Text
import Multimeter.Report.Json

/-!
# Members and simple values read back

A written object has the members that are present, each once, and they are found by their names.

* `Json.fields?_ofMembers`: the members of an object with different names.
* `Json.present`, **`Json.fields?_present`**: members that may be absent.
* `Json.text?_ofString`, `Json.uint64?_ofNat`, `Json.int32?_ofInt` and others: the simple values.
* `Json.list?_map`: arrays.
* `Json.written_present`, `Json.written_array_map`: what is made of written values is written.
-/

namespace Multimeter.Json

/-! ## Members -/

theorem unitsOf_injective : Function.Injective unitsOf := by
  intro s t h
  exact Option.some.inj ((textOf?_unitsOf s).symm.trans (h ▸ textOf?_unitsOf t))

section

variable (members : List (String × Json))

theorem lookup_membersOf (name : String) :
    (membersOf members).lookup (unitsOf name) = members.lookup name := by
  induction members with
  | nil => rfl
  | cons m members ih =>
    rw [membersOf, List.map_cons, List.lookup_cons, List.lookup_cons, ← membersOf, ih]
    by_cases h : name = m.1
    · simp [h]
    · have hunits : unitsOf name ≠ unitsOf m.1 := fun heq => h (unitsOf_injective heq)
      rw [beq_eq_false_iff_ne.mpr h, beq_eq_false_iff_ne.mpr hunits]

theorem countP_membersOf (name : String) :
    (membersOf members).countP (fun m => m.1 == unitsOf name) =
      (members.map Prod.fst).count name := by
  rw [membersOf, List.countP_map, List.count, List.countP_map]
  refine List.countP_congr fun m _ => ?_
  change (unitsOf m.1 == unitsOf name) = true ↔ (m.1 == name) = true
  rw [beq_iff_eq, beq_iff_eq, unitsOf_injective.eq_iff]

/-- **The members of a written object** are found by their names. -/
theorem fields?_ofMembers (h : (members.map Prod.fst).Nodup) (names : List String) :
    (ofMembers members).fields? names = some (names.map fun name => members.lookup name) := by
  have htexts : (membersOf members).all (fun m => (textOf? m.1).isSome) = true := by
    refine List.all_eq_true.mpr fun m hm => ?_
    obtain ⟨m, _, rfl⟩ := List.mem_map.mp hm
    rw [textOf?_unitsOf]
    rfl
  have honce : names.all (fun name =>
      (membersOf members).countP (fun m => m.1 == unitsOf name) ≤ 1) = true := by
    refine List.all_eq_true.mpr fun name _ => decide_eq_true ?_
    rw [countP_membersOf]
    exact List.nodup_iff_count_le_one.mp h name
  rw [show ofMembers members = object (membersOf members) from rfl, fields?,
    if_pos ⟨htexts, honce⟩]
  simp only [lookup_membersOf]

end

/-- The members with a value, of those that may be absent. -/
def present (fields : List (String × Option Json)) : List (String × Json) :=
  fields.flatMap fun f => Report.member? f.1 f.2

section

variable {fields : List (String × Option Json)}

theorem mem_present {m : String × Json} : m ∈ present fields ↔ (m.1, some m.2) ∈ fields := by
  simp only [present, List.mem_flatMap, Report.member?, Option.mem_toList, Option.map_eq_some_iff]
  constructor
  · rintro ⟨f, hf, j, hj, rfl⟩
    exact hj ▸ hf
  · exact fun h => ⟨_, h, m.2, rfl, rfl⟩

theorem present_cons_none (name : String) (fields : List (String × Option Json)) :
    present ((name, none) :: fields) = present fields := rfl

theorem present_cons_some (name : String) (j : Json) (fields : List (String × Option Json)) :
    present ((name, some j) :: fields) = (name, j) :: present fields := rfl

theorem map_fst_present_sublist (fields : List (String × Option Json)) :
    ((present fields).map Prod.fst).Sublist (fields.map Prod.fst) := by
  induction fields with
  | nil => exact List.Sublist.refl _
  | cons f fields ih =>
    obtain ⟨name, value⟩ := f
    cases value with
    | none =>
      rw [present_cons_none]
      exact ih.cons name
    | some j =>
      rw [present_cons_some]
      exact ih.cons_cons name

theorem lookup_present (h : (fields.map Prod.fst).Nodup) :
    ∀ f ∈ fields, (present fields).lookup f.1 = f.2 := by
  induction fields with
  | nil => exact fun f hf => absurd hf List.not_mem_nil
  | cons first fields ih =>
    obtain ⟨name, value⟩ := first
    obtain ⟨hfirst, hlater⟩ := List.nodup_cons.mp h
    refine List.forall_mem_cons.mpr ⟨?_, fun f hf => ?_⟩
    · cases value with
      | some j =>
        rw [present_cons_some]
        exact List.lookup_cons_self
      | none =>
        rw [present_cons_none, List.lookup_eq_none_iff]
        intro m hm
        have hmem : m.1 ∈ fields.map Prod.fst := List.mem_map_of_mem (mem_present.mp hm)
        exact bne_iff_ne.mpr fun heq => hfirst (heq ▸ hmem)
    · have hne : f.1 ≠ name := by
        rintro rfl
        exact hfirst (List.mem_map.mpr ⟨f, hf, rfl⟩)
      cases value with
      | none => exact ih hlater f hf
      | some j =>
        rw [present_cons_some, List.lookup_cons, beq_eq_false_iff_ne.mpr hne]
        exact ih hlater f hf

end

section

variable (fields : List (String × Option Json)) {j : Json} (hj : j = ofMembers (present fields))

include hj

/-- **A written object gives back what is present**, and nothing for what is absent. -/
theorem fields?_present {names : List String} (hnames : fields.map Prod.fst = names)
    (h : names.Nodup) : j.fields? names = some (fields.map Prod.snd) := by
  subst hj hnames
  rw [fields?_ofMembers _ (h.sublist (map_fst_present_sublist fields)), List.map_map]
  exact congrArg some (List.map_congr_left (lookup_present h))

theorem written_present (h : ∀ f ∈ fields, ∀ k ∈ f.2, Written k) : j.Written :=
  hj ▸ .object fun m hm => h _ (mem_present.mp hm) m.2 rfl

end

/-! ## Simple values -/

@[simp] theorem text?_ofString (s : String) : (ofString s).text? = some s := textOf?_unitsOf s

@[simp] theorem choice?_ofString (s : String) : (ofString s).choice? = some s := textOf?_unitsOf s

@[simp] theorem int?_ofInt (n : Int) : (ofInt n).int? = some n := Numeral.toInt?_ofInt n

theorem ofNat_eq_ofInt (n : Nat) : ofNat n = ofInt n := congrArg number (Numeral.ofNat_eq_ofInt n)

theorem nat?_ofNat {width n : Nat} (h : n < Nat.pow 2 width) : (ofNat n).nat? width = some n := by
  have hfits : (n : Int) < (Nat.pow 2 width : Int) := Int.ofNat_lt.mpr h
  rw [nat?, ofNat_eq_ofInt, int?_ofInt]
  exact if_pos ⟨Int.natCast_nonneg n, hfits⟩

@[simp] theorem uint32?_ofNat (n : UInt32) : (ofNat n.toNat).uint32? = some n := by
  rw [uint32?, nat?_ofNat n.toNat_lt, Option.map_some, UInt32.ofNat_toNat]

@[simp] theorem uint64?_ofNat (n : UInt64) : (ofNat n.toNat).uint64? = some n := by
  rw [uint64?, nat?_ofNat n.toNat_lt, Option.map_some, UInt64.ofNat_toNat]

@[simp] theorem int32?_ofInt (n : Int32) : (ofInt n.toInt).int32? = some n := by
  rw [int32?, int?_ofInt]
  refine (if_pos ⟨n.le_toInt, n.toInt_lt⟩).trans ?_
  rw [Int32.ofInt_toInt]
  rfl

/-! ## Arrays and absent values -/

theorem list?_map {α : Type} {read : Json → Option α} {write : α → Json} {items : List α}
    (h : ∀ a ∈ items, read (write a) = some a) :
    (array (items.map write)).list? read = some items := by
  have hmap : (items.map write).mapM read = some items := by
    induction items with
    | nil => rfl
    | cons a items ih =>
      rw [List.map_cons, List.mapM_cons, h a List.mem_cons_self,
        ih fun b hb => h b (List.mem_cons_of_mem a hb)]
      rfl
  exact hmap

@[simp] theorem list?_ofStrings (items : List String) : (ofStrings items).list? text? = some items :=
  list?_map fun _ _ => text?_ofString _

/-! ## Written values -/

theorem written_ofNat (n : Nat) : (ofNat n).Written :=
  ofNat_eq_ofInt n ▸ .number (Numeral.written_ofInt n)

theorem written_ofInt (n : Int) : (ofInt n).Written := .number (Numeral.written_ofInt n)

theorem written_array_map {α : Type} {write : α → Json} {items : List α}
    (h : ∀ a ∈ items, (write a).Written) : (array (items.map write)).Written :=
  .array (List.forall_mem_map.mpr h)

theorem written_ofStrings (items : List String) : (ofStrings items).Written :=
  written_array_map fun s _ => .string s

end Multimeter.Json
