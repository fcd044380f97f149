import ZingoIndexer.Wire.Serde

/-!
# Derived struct impls

What `#[derive(Deserialize)]` generates for a struct with named fields, as serde_json's
`deserialize_struct` runs it on the JSON text. An object goes to `visit_map`, which takes the
entries in the order of the text: a key that names no field is skipped with its value, a field
seen twice is `duplicate_field`, and each field's value is read as it comes; after the loop the
first declared field that was not seen is `missing_field`, except that an `Option` field reads
as `None`. An array goes to `visit_seq`, one element a field in declaration order. The derived
`Serialize` writes the fields as an object, in declaration order.

The visitor here keeps the value of each field it has read, and the typed value is read from it
again once the loop is over; the field decoders being functions, that is the generated code's
result.
-/

namespace ZingoIndexer

/-- A field of a derived struct: its name on the wire and the check its type's `Deserialize`
makes of a value. -/
structure FieldSpec where
  name : String
  check : Value → Except SerdeError Unit

def Codec.field (c : Codec α) (name : String) : FieldSpec :=
  ⟨name, fun v => (c.decode v).map fun _ => ()⟩

/-- A field of type `Option<T>`. -/
def Codec.optionField (c : Codec α) (name : String) : FieldSpec :=
  ⟨name, fun v => (decodeOption c.decode v).map fun _ => ()⟩

@[simp] theorem Codec.field_name (c : Codec α) (name : String) : (c.field name).name = name := rfl

@[simp] theorem Codec.optionField_name (c : Codec α) (name : String) :
    (c.optionField name).name = name := rfl

/-- Whether a key names one of the fields. -/
def declares (fields : List FieldSpec) (k : String) : Bool :=
  (fields.find? (·.name == k)).isSome

/-- The derived `visit_map`; `seen` holds the fields read so far, with their values. -/
def visitMap (fields : List FieldSpec) :
    List (String × Value) → List (String × Value) → Except SerdeError (List (String × Value))
  | [], seen => .ok seen
  | (k, v) :: rest, seen =>
    match fields.find? (·.name == k) with
    | none => visitMap fields rest seen
    | some f =>
      if (seen.lookup k).isSome then .error (.duplicateField k)
      else do
        f.check v
        visitMap fields rest (seen ++ [(k, v)])

/-- The derived `visit_seq`, then serde_json's check that the array has ended. -/
def visitSeq (expecting : String) :
    List FieldSpec → Nat → List Value → Except SerdeError (List (String × Value))
  | [], _, [] => .ok []
  | [], _, _ :: _ => .error .trailingCharacters
  | _ :: _, i, [] => .error (.invalidLength i expecting)
  | f :: fs, i, v :: vs => do
    f.check v
    let seen ← visitSeq expecting fs (i + 1) vs
    pure ((f.name, v) :: seen)

/-- The derived visitor's `expecting`. -/
def structExpecting (name : String) : String := "struct " ++ name

/-- What `invalid_length` in the derived `visit_seq` expects. -/
def seqExpecting (name : String) (n : Nat) : String :=
  "struct " ++ name ++ " with " ++ toString n ++ if n = 1 then " element" else " elements"

/-- serde_json's `deserialize_struct` with a derived visitor. -/
def visitStruct (name : String) (fields : List FieldSpec) :
    Value → Except SerdeError (List (String × Value))
  | .object entries => visitMap fields entries []
  | .array items => visitSeq (seqExpecting name fields.length) fields 0 items
  | v => .error (.invalidType v.unexpected (structExpecting name))

/-- The visitor of an untagged enum's struct variant, run by `deserialize_any` on the buffered
input; serde derives it without `visit_seq`, so only an object is read. -/
def visitVariant (name : String) (fields : List FieldSpec) :
    Value → Except SerdeError (List (String × Value))
  | .object entries => visitMap fields entries []
  | v => .error (.invalidType v.unexpected ("struct variant " ++ name))

/-- After the visitor: the field's value read by its type, or `missing_field`. -/
def takeField (seen : List (String × Value)) (c : Codec α) (name : String) :
    Except SerdeError α :=
  match seen.lookup name with
  | some v => c.decode v
  | none => .error (.missingField name)

/-- An `Option` field that was not seen is `None`. -/
def takeOptionField (seen : List (String × Value)) (c : Codec α) (name : String) :
    Except SerdeError (Option α) :=
  match seen.lookup name with
  | some v => decodeOption c.decode v
  | none => .ok none

/-- A field with `skip_serializing_if = "Option::is_none"`: written only when it is `Some`. -/
def optionEntry (c : Codec α) (name : String) : Option α → List (String × Value)
  | some a => [(name, c.encode a)]
  | none => []

section Visitor

variable {fields : List FieldSpec}

theorem declares_of_mem {f : FieldSpec} (hf : f ∈ fields) : declares fields f.name = true :=
  List.find?_isSome.mpr ⟨f, hf, by simp⟩

private theorem count_keys_cons (name k : String) (v : Value) (l : List (String × Value)) :
    (((k, v) :: l).map Prod.fst).count name =
      (l.map Prod.fst).count name + if k = name then 1 else 0 := by
  simp only [List.map_cons, List.count_cons, beq_iff_eq]

private theorem keys_append_cons (seen rest : List (String × Value)) (k : String) (v : Value) :
    (seen ++ [(k, v)]).map Prod.fst ++ rest.map Prod.fst =
      seen.map Prod.fst ++ ((k, v) :: rest).map Prod.fst := by
  simp only [List.map_append, List.map_cons, List.map_nil, List.append_assoc, List.singleton_append]

theorem visitMap_eq_ok :
    ∀ {es seen : List (String × Value)},
      (∀ f ∈ fields, (seen.map Prod.fst ++ es.map Prod.fst).count f.name ≤ 1) →
      (∀ f ∈ fields, ∀ v, (f.name, v) ∈ es → f.check v = .ok ()) →
      visitMap fields es seen = .ok (seen ++ es.filter fun kv => declares fields kv.1)
  | [], seen, _, _ => by simp [visitMap]
  | (k, v) :: rest, seen, hcount, hcheck => by
    have hcount' : ∀ f ∈ fields, (seen.map Prod.fst ++ rest.map Prod.fst).count f.name ≤ 1 :=
      fun f hf => by
        have := hcount f hf
        rw [List.count_append, count_keys_cons] at this
        rw [List.count_append]; omega
    have hcheck' := fun f hf v' hv' => hcheck f hf v' (List.mem_cons_of_mem (k, v) hv')
    cases hf : fields.find? (·.name == k) with
    | none =>
      have hd : declares fields k = false := by simp [declares, hf]
      simp only [visitMap, hf, List.filter_cons, hd]
      exact visitMap_eq_ok hcount' hcheck'
    | some f =>
      have hmem := List.mem_of_find?_eq_some hf
      have hname : f.name = k := by simpa using List.find?_some hf
      have hd : declares fields k = true := by simp [declares, hf]
      have hseen : k ∉ seen.map Prod.fst := by
        have := hcount f hmem
        rw [List.count_append, count_keys_cons, if_pos hname.symm, hname] at this
        exact fun h => by have := List.count_pos_iff.mpr h; omega
      have hcount'' : ∀ g ∈ fields,
          ((seen ++ [(k, v)]).map Prod.fst ++ rest.map Prod.fst).count g.name ≤ 1 := fun g hg => by
        rw [keys_append_cons]
        exact hcount g hg
      simp only [visitMap, hf, lookup_of_not_mem_keys hseen, Option.isSome_none,
        Bool.false_eq_true, if_false, List.filter_cons, hd, if_true]
      rw [hcheck f hmem v (by rw [hname]; exact List.mem_cons_self _ _), ok_bind,
        visitMap_eq_ok hcount'' hcheck', List.append_assoc, List.singleton_append]

theorem visitMap_sound {r : List (String × Value)} :
    ∀ {es seen : List (String × Value)}, visitMap fields es seen = .ok r →
      (∀ f ∈ fields, (seen.map Prod.fst).count f.name ≤ 1) →
      r = seen ++ es.filter (fun kv => declares fields kv.1) ∧
        ∀ f ∈ fields, (seen.map Prod.fst ++ es.map Prod.fst).count f.name ≤ 1
  | [], seen, h, hseen => by
    cases h
    exact ⟨by simp, by simpa using hseen⟩
  | (k, v) :: rest, seen, h, hseen => by
    cases hf : fields.find? (·.name == k) with
    | none =>
      have hd : declares fields k = false := by simp [declares, hf]
      simp only [visitMap, hf] at h
      obtain ⟨rfl, hc⟩ := visitMap_sound h hseen
      refine ⟨by simp [List.filter_cons, hd], fun f hf' => ?_⟩
      have hne : k ≠ f.name := fun hk =>
        List.find?_eq_none.mp hf f hf' (by simp [hk])
      have := hc f hf'
      rw [List.count_append, count_keys_cons, if_neg hne]
      rw [List.count_append] at this
      omega
    | some g =>
      have hd : declares fields k = true := by simp [declares, hf]
      simp only [visitMap, hf] at h
      split at h
      · cases h
      · next hlook =>
        obtain ⟨_, -, h⟩ := bind_eq_ok h
        have hk : k ∉ seen.map Prod.fst :=
          not_mem_keys_of_lookup (Option.not_isSome_iff_eq_none.mp hlook)
        have hseen' : ∀ f ∈ fields, ((seen ++ [(k, v)]).map Prod.fst).count f.name ≤ 1 :=
          fun f hf' => by
            rw [List.map_append, List.count_append]
            by_cases hfk : k = f.name
            · subst hfk
              simp [List.count_eq_zero.mpr hk]
            · simpa [List.count_cons, hfk] using hseen f hf'
        obtain ⟨rfl, hc⟩ := visitMap_sound h hseen'
        refine ⟨by simp [List.filter_cons, hd], fun f hf' => ?_⟩
        rw [← keys_append_cons]
        exact hc f hf'

theorem visitMap_lookup {es r : List (String × Value)} (h : visitMap fields es [] = .ok r)
    (name : String) (hname : name ∈ fields.map FieldSpec.name) :
    r.lookup name = es.lookup name := by
  obtain ⟨rfl, -⟩ := visitMap_sound h (by simp)
  obtain ⟨f, hf, rfl⟩ := List.mem_map.mp hname
  exact lookup_filter (declares_of_mem hf)

/-- The derived `visit_map` reads any reordering of an object whose keys are distinct and whose
field values are accepted, with entries under other keys added, as it reads the object. -/
theorem visitMap_perm {entries extra es : List (String × Value)}
    (hnd : (entries.map Prod.fst).Nodup)
    (hcheck : ∀ f ∈ fields, ∀ v, entries.lookup f.name = some v → f.check v = .ok ())
    (hextra : ∀ kv ∈ extra, kv.1 ∉ fields.map FieldSpec.name)
    (hperm : es.Perm (entries ++ extra)) :
    ∃ r, visitMap fields es [] = .ok r ∧
      ∀ name ∈ fields.map FieldSpec.name, r.lookup name = entries.lookup name := by
  have hnot : ∀ f ∈ fields, f.name ∉ extra.map Prod.fst := fun f hf h => by
    obtain ⟨kv, hkv, hk⟩ := List.mem_map.mp h
    exact hextra kv hkv (hk ▸ List.mem_map_of_mem _ hf)
  have hcount : ∀ f ∈ fields, (es.map Prod.fst).count f.name ≤ 1 := fun f hf => by
    rw [(hperm.map Prod.fst).count_eq, List.map_append, List.count_append,
      List.count_eq_zero.mpr (hnot f hf)]
    exact List.nodup_iff_count_le_one.mp hnd _
  have hv : visitMap fields es [] = .ok ([] ++ es.filter fun kv => declares fields kv.1) :=
    visitMap_eq_ok (by simpa using hcount) fun f hf v hmem => by
    rcases List.mem_append.mp (hperm.mem_iff.mp hmem) with h | h
    · exact hcheck f hf v (lookup_of_mem (List.nodup_iff_count_le_one.mp hnd _) h)
    · exact absurd (List.mem_map_of_mem Prod.fst h) (hnot f hf)
  refine ⟨_, hv, fun name hname => ?_⟩
  obtain ⟨f, hf, rfl⟩ := List.mem_map.mp hname
  rw [List.nil_append, lookup_filter (declares_of_mem hf), lookup_perm hperm (hcount f hf),
    List.lookup_append, lookup_of_not_mem_keys (hnot f hf), Option.or_none]

end Visitor

@[simp] theorem takeField_of_lookup {seen : List (String × Value)} {c : Codec α} {name : String}
    {a : α} (h : seen.lookup name = some (c.encode a)) : takeField seen c name = .ok a := by
  simp [takeField, h]

theorem takeOptionField_of_lookup {seen : List (String × Value)} {c : Codec α} {name : String}
    {o : Option α} (h : seen.lookup name = o.map c.encode) : takeOptionField seen c name = .ok o := by
  cases o with
  | none => simp [takeOptionField, h]
  | some a => simp [takeOptionField, h, c.encode_ne_null a, Except.map]

@[simp] theorem lookup_optionEntry (c : Codec α) (name k : String) (o : Option α) :
    (optionEntry c name o).lookup k = if k = name then o.map c.encode else none := by
  by_cases h : k = name
  · subst h; cases o <;> simp [optionEntry]
  · have hne : (k == name) = false := by simpa using h
    cases o <;> simp [optionEntry, List.lookup_cons, hne, h]

@[simp] theorem Codec.field_check (c : Codec α) (name : String) (a : α) :
    (c.field name).check (c.encode a) = .ok () := by
  simp [Codec.field, Except.map]

@[simp] theorem Codec.optionField_check (c : Codec α) (name : String) (a : α) :
    (c.optionField name).check (c.encode a) = .ok () := by
  simp [Codec.optionField, c.encode_ne_null a, Except.map]

theorem takeField_eq_ok {seen : List (String × Value)} {c : Codec α} {name : String} {a : α}
    (h : takeField seen c name = .ok a) : ∃ v, seen.lookup name = some v ∧ c.decode v = .ok a := by
  unfold takeField at h
  split at h
  · exact ⟨_, ‹_›, h⟩
  · cases h

theorem takeOptionField_eq_some {seen : List (String × Value)} {c : Codec α} {name : String}
    {a : α} (h : takeOptionField seen c name = .ok (some a)) :
    ∃ v, seen.lookup name = some v ∧ c.decode v = .ok a := by
  unfold takeOptionField at h
  split at h
  · next v hv =>
    cases v with
    | null => cases h
    | _ => obtain ⟨b, hb, hab⟩ := map_eq_ok h; cases hab; exact ⟨_, hv, hb⟩
  · cases h

theorem visitMap_ne_ok_of_repeated {fields : List FieldSpec} {es r : List (String × Value)}
    {name : String} (hname : name ∈ fields.map FieldSpec.name)
    (hdup : 2 ≤ (es.map Prod.fst).count name) : visitMap fields es [] ≠ .ok r := fun h => by
  obtain ⟨f, hf, rfl⟩ := List.mem_map.mp hname
  have := (visitMap_sound h (by simp)).2 f hf
  simp only [List.map_nil, List.nil_append] at this
  omega

theorem visitSeq_length {expecting : String} :
    ∀ {fields : List FieldSpec} {i : Nat} {items : List Value} {r : List (String × Value)},
      visitSeq expecting fields i items = .ok r → items.length = fields.length
  | [], _, [], _, _ => rfl
  | [], _, _ :: _, _, h => by cases h
  | _ :: _, _, [], _, h => by cases h
  | f :: fs, i, v :: vs, r, h => by
    obtain ⟨_, -, h⟩ := bind_eq_ok h
    obtain ⟨_, h, -⟩ := bind_eq_ok h
    simp [visitSeq_length h]

end ZingoIndexer
