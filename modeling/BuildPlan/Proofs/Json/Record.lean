import BuildPlan.Json.Record
import BuildPlan.Proofs.Json.Lexer
import BuildPlan.Proofs.Multimap

/-! # Records read back

The parts of a written record are its fields, whichever of them have been left out, and a part is
read back from what is written for it. Lists are read item by item, and a map from its entries.
-/
namespace BuildPlan.Json

/-- An object without the fields of some names. -/
def without (omitted : List String) : Json → Json
  | .object fields => .object (fields.filter fun field => field.1.all (· ∉ omitted))
  | j => j

/-- What is written for a part, unless it is left out. -/
def part (omitted : List String) (name : String) (j : Json) : Option Json :=
  if name ∈ omitted then none else some j

/-! ### The parts of an object -/

theorem fields?_ofFields (fields : List (String × Json)) :
    (ofFields fields).fields? = some fields := by
  induction fields with
  | nil => rfl
  | cons field rest ih =>
    simp only [ofFields, fields?] at ih ⊢
    simp [ih]

theorem without_ofFields (omitted : List String) (fields : List (String × Json)) :
    (ofFields fields).without omitted =
      ofFields (fields.filter fun field => field.1 ∉ omitted) := by
  simp [ofFields, without, List.filter_map, Function.comp_def]

theorem filter_eq_toList_lookup {fields : List (String × Json)} (h : (fields.map Prod.fst).Nodup)
    (name : String) :
    fields.filter (·.1 == name) = ((fields.lookup name).map fun j => (name, j)).toList := by
  induction fields with
  | nil => rfl
  | cons field rest ih =>
    obtain ⟨key, j⟩ := field
    rw [List.map_cons, List.nodup_cons] at h
    by_cases hkey : key = name
    · subst hkey
      have hrest : rest.filter (·.1 == key) = [] := by
        simp only [List.filter_eq_nil_iff, beq_iff_eq]
        intro field hfield hkey
        have hmem : field.1 ∈ rest.map Prod.fst := List.mem_map_of_mem hfield
        exact h.1 (hkey ▸ hmem)
      simp [hrest]
    · have hkey' : (name == key) = false := beq_false_of_ne (Ne.symm hkey)
      simpa [hkey, hkey', List.lookup_cons] using ih h.2

theorem lookup_filter_notMem (omitted : List String) (fields : List (String × Json))
    (name : String) :
    (fields.filter fun field => field.1 ∉ omitted).lookup name =
      (fields.lookup name).bind (part omitted name) := by
  induction fields with
  | nil => rfl
  | cons field rest ih =>
    obtain ⟨key, j⟩ := field
    by_cases hkey : name = key
    · subst hkey
      by_cases homitted : name ∈ omitted
      · rw [List.filter_cons_of_neg (by simpa using homitted), ih]
        cases rest.lookup name <;> simp [part, homitted]
      · simp [part, homitted]
    · have hkey' : (name == key) = false := beq_false_of_ne hkey
      by_cases homitted : key ∈ omitted <;>
        simpa [homitted, hkey', List.lookup_cons] using ih

theorem parts?_ofFields {fields : List (String × Json)} (h : (fields.map Prod.fst).Nodup)
    (names : List String) :
    (ofFields fields).parts? names = some (names.map fun name => fields.lookup name) := by
  refine Option.bind_eq_some_iff.2 ⟨fields, fields?_ofFields fields, ?_⟩
  induction names with
  | nil => rfl
  | cons name rest ih =>
    rw [List.mapM_cons, ih, filter_eq_toList_lookup h name]
    cases hlookup : fields.lookup name <;> simp [hlookup]

theorem parts?_without {fields : List (String × Json)} (h : (fields.map Prod.fst).Nodup)
    (omitted names : List String) :
    ((ofFields fields).without omitted).parts? names =
      some (names.map fun name => (fields.lookup name).bind (part omitted name)) := by
  have hfilter : ((fields.filter fun field => field.1 ∉ omitted).map Prod.fst).Nodup :=
    h.sublist (List.filter_sublist.map Prod.fst)
  rw [without_ofFields, parts?_ofFields hfilter]
  simp only [lookup_filter_notMem]

/-! ### Reading parts -/

variable {α : Type} {read : Json → Option α} {omitted : List String} {name : String} {j : Json}
  {a : α}

theorem required?_eq_some_iff {part : Option Json} :
    required? read part = some a ↔ ∃ j, part = some j ∧ read j = some a :=
  Option.bind_eq_some_iff

theorem required?_part (h : name ∉ omitted) : required? read (part omitted name j) = read j := by
  simp [part, h, required?]

theorem default?_part {value : α} (hread : read j = some a) (h : name ∈ omitted → a = value) :
    default? value read (part omitted name j) = some a := by
  by_cases hname : name ∈ omitted
  · simp [part, hname, default?, h hname]
  · simp [part, hname, default?, hread]

/-! ### Scalars, lists and maps -/

theorem string?_eq_some_iff {s : String} : j.string? = some s ↔ j = ofString s := by
  constructor
  · intro h
    cases j with
    | string text =>
      obtain rfl : text = some s := h
      rfl
    | _ => cases h
  · rintro rfl
    rfl

theorem uint64?_ofNat (w : UInt64) : (ofNat w.toNat).uint64? = some w := by
  simp [uint64?, natBelow?, ofNat, w.toNat_lt]

theorem uint32?_ofNat (w : UInt32) : (ofNat w.toNat).uint32? = some w := by
  simp [uint32?, natBelow?, ofNat, w.toNat_lt]

theorem list?_array {as : List α} {items : List Json}
    (h : List.Forall₂ (fun a j => read j = some a) as items) :
    list? read (.array items) = some as := by
  induction h with
  | nil => rfl
  | cons hj _ ih =>
    simp only [list?] at ih ⊢
    simp [hj, ih]

theorem list?_ofList {write : α → Json} (h : ∀ a, read (write a) = some a) (as : List α) :
    list? read (ofList write as) = some as := by
  refine list?_array (List.forall₂_map_right_iff.2 ?_)
  exact List.forall₂_same.2 fun a _ => h a

theorem map?_ofFields {κ : Type} [Ord κ] [Std.TransOrd κ] [Std.LawfulEqOrd κ] {key : String → κ}
    {text : κ → String} {write : α → Json} (hkey : ∀ k, key (text k) = k)
    (hread : ∀ a, read (write a) = some a) (m : Std.ExtTreeMap κ α) :
    map? key read (ofFields (m.toList.map fun entry => (text entry.1, write entry.2))) =
      some m := by
  have hmap : Std.ExtTreeMap.ofList m.toList = m := by
    have hkeys : (m.toList.map Prod.fst).Nodup := by
      refine List.pairwise_map.2 (m.distinct_keys_toList.imp fun h e => h ?_)
      rw [e]
      exact Std.ReflCmp.compare_self
    refine Std.ExtTreeMap.ext_getElem? fun k => Option.ext fun a => ?_
    rw [getElem?_ofList_eq_some_iff hkeys, Std.ExtTreeMap.mem_toList_iff_getElem?_eq_some]
  refine Option.bind_eq_some_iff.2 ⟨_, fields?_ofFields _, ?_⟩
  refine Option.bind_eq_some_iff.2 ⟨m.toList, ?_, congrArg some hmap⟩
  rw [List.mapM_map]
  simp only [Function.comp_def, hread, hkey, Option.map_some]
  exact List.mapM_pure.trans (by simp)

/-! ### Records without other numbers than integers -/

@[simp] theorem isExact_ofString (s : String) : IsExact (ofString s) := .string (some s)

@[simp] theorem isExact_ofNat (n : Nat) : IsExact (ofNat n) := .integer false n

@[simp] theorem isExact_bool (b : Bool) : IsExact (.bool b) := .bool b

theorem isExact_ofFields {fields : List (String × Json)} (h : ∀ field ∈ fields, IsExact field.2) :
    IsExact (ofFields fields) := by
  refine .object fun field hfield => ?_
  obtain ⟨field, hmem, rfl⟩ := List.mem_map.1 hfield
  exact h field hmem

theorem IsExact.without {j : Json} (h : IsExact j) (omitted : List String) :
    IsExact (j.without omitted) := by
  cases h with
  | object h => exact .object fun field hfield => h field (List.mem_of_mem_filter hfield)
  | array h => exact .array h
  | _ => constructor

theorem isExact_array {as : List α} {items : List Json}
    (h : List.Forall₂ (fun _ j => IsExact j) as items) : IsExact (.array items) := by
  refine .array ?_
  induction h with
  | nil => simp
  | cons hj _ ih => exact List.forall_mem_cons.2 ⟨hj, ih⟩

theorem isExact_ofList {write : α → Json} (h : ∀ a, IsExact (write a)) (as : List α) :
    IsExact (ofList write as) := by
  refine .array ?_
  simp [h]

end BuildPlan.Json
