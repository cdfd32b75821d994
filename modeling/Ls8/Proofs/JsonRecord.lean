import Ls8.Json.Basic
import Ls8.Lookup
import Mathlib.Data.List.Nodup
import Mathlib.Data.List.Perm.Subperm

/-!
# Records in JSON

A record may be written in several ways, and all of them are read alike.

* `Record`: the ways to write a record with some fields.
* `record_iff`: what is found in a record is what was put there, and a value in which it is found is
  such a record.
* `natural?_eq_some_iff`, `byte?_eq_some_iff`, …: the values that are read as one of a type.
-/

namespace Ls8

namespace Json

/-! ## Records -/

/-- The value is a record that has some fields, out of those with the given names: the list of
their values if none is missing, or an object that has them in any order, among others that have
none of the names. -/
inductive Record (names : List String) (fields : List (String × Json)) : Json → Prop where
  | list (whole : fields.map Prod.fst = names) : Record names fields (array (fields.map Prod.snd))
  | object {members others : List (String × Json)} (reordered : members.Perm (fields ++ others))
      (unknown : ∀ other ∈ others, other.1 ∉ names) : Record names fields (object members)

variable {names : List String} {fields members : List (String × Json)} {value : Json}

/-- An object of the fields alone is one way to write a record. -/
theorem record_object (names : List String) (fields : List (String × Json)) :
    Record names fields (object fields) :=
  .object (.of_eq (List.append_nil fields).symm) nofun

theorem length_filter_le_one (hNodup : (fields.map Prod.fst).Nodup) (name : String) :
    (fields.filter (·.1 == name)).length ≤ 1 := by
  have hCount := List.nodup_iff_count_le_one.mp hNodup name
  rwa [List.count, List.countP_map, List.countP_eq_length_filter] at hCount

/-- The fields of a record stand in an object as they would without the others. -/
theorem filter_of_perm {others : List (String × Json)} (hNodup : (fields.map Prod.fst).Nodup)
    (hPerm : members.Perm (fields ++ others)) (hUnknown : ∀ other ∈ others, other.1 ∉ names)
    {name : String} (hName : name ∈ names) :
    members.filter (·.1 == name) = fields.filter (·.1 == name) := by
  have hOthers : others.filter (·.1 == name) = [] := by
    rw [List.filter_eq_nil_iff]
    intro other hOther hSame
    exact hUnknown other hOther (beq_iff_eq.mp hSame ▸ hName)
  have hFiltered := hPerm.filter (·.1 == name)
  rw [List.filter_append, hOthers, List.append_nil] at hFiltered
  have hOne := length_filter_le_one hNodup name
  generalize fields.filter (·.1 == name) = found at hFiltered hOne ⊢
  match found with
  | [] => exact List.perm_nil.mp hFiltered
  | [_] => exact List.perm_singleton.mp hFiltered
  | _ :: _ :: _ => simp at hOne

section

variable (hNodup : names.Nodup) (hFields : (fields.map Prod.fst).Sublist names)

include hNodup hFields

theorem Record.isRecord (h : Record names fields value) : value.isRecord names = true := by
  cases h with
  | list whole =>
    rw [← whole]
    simp [Json.isRecord]
  | object reordered unknown =>
    rw [Json.isRecord, List.all_eq_true]
    intro name hName
    rw [filter_of_perm (hNodup.sublist hFields) reordered unknown hName, decide_eq_true_eq]
    exact length_filter_le_one (hNodup.sublist hFields) name

theorem Record.member?_eq (h : Record names fields value) {position : Nat} {name : String}
    (hName : names[position]? = some name) :
    value.member? position name = fields.lookup name := by
  have hKeys : (fields.map Prod.fst).Nodup := hNodup.sublist hFields
  cases h with
  | list whole =>
    rw [← whole, List.getElem?_map, Option.map_eq_some_iff] at hName
    obtain ⟨field, hField, rfl⟩ := hName
    rw [(lookup_eq_some_iff_mem hKeys).mpr (List.mem_of_getElem? hField), Json.member?,
      List.getElem?_map, hField, Option.map_some]
  | @object members others reordered unknown =>
    have hFilter := filter_of_perm hKeys reordered unknown (List.mem_of_getElem? hName)
    rw [Json.member?, ← lookup_filter members, hFilter, lookup_filter]

theorem record_of_array {items : List Json} (hLength : items.length = names.length)
    (hItems : ∀ (position : Nat) name, names[position]? = some name →
      items[position]? = fields.lookup name) : Record names fields (array items) := by
  have hWhole : fields.map Prod.fst = names := by
    apply hFields.eq_of_length_le
    apply (List.subperm_of_subset hNodup _).length_le
    intro name hName
    obtain ⟨position, hPosition⟩ := List.mem_iff_getElem?.mp hName
    have hInside : position < items.length := hLength ▸ (List.getElem?_eq_some_iff.mp hPosition).1
    have hItem := hItems position name hPosition
    rw [List.getElem?_eq_getElem hInside] at hItem
    have hField := (lookup_eq_some_iff_mem (hNodup.sublist hFields)).mp hItem.symm
    exact List.mem_map.mpr ⟨_, hField, rfl⟩
  have hSame : items = fields.map Prod.snd := by
    refine List.ext_getElem? fun position => ?_
    cases hName : names[position]? with
    | some name =>
      exact (hItems position name hName).trans
        ((Record.list hWhole).member?_eq hNodup hFields hName).symm
    | none =>
      have hPast : names.length ≤ position := List.getElem?_eq_none_iff.mp hName
      have hFieldsLength : (fields.map Prod.snd).length = names.length := by
        rw [← hWhole, List.length_map, List.length_map]
      rw [List.getElem?_eq_none (by omega), List.getElem?_eq_none (by omega)]
  rw [hSame]
  exact .list hWhole

theorem record_of_object (hRecord : (object members).isRecord names = true)
    (hMembers : ∀ name ∈ names, members.lookup name = fields.lookup name) :
    Record names fields (object members) := by
  have hKeys : (fields.map Prod.fst).Nodup := hNodup.sublist hFields
  rw [isRecord, List.all_eq_true] at hRecord
  have hSplit := List.filter_append_perm (fun member => names.contains member.1) members
  generalize hKnown : members.filter (fun member => names.contains member.1) = known at hSplit
  have hNamed : ∀ member ∈ known, member.1 ∈ names := by
    intro member hMember
    rw [← hKnown, List.mem_filter, List.contains_iff_mem] at hMember
    exact hMember.2
  have hFilter : ∀ name ∈ names, known.filter (·.1 == name) = members.filter (·.1 == name) := by
    intro name hName
    rw [← hKnown, List.filter_filter]
    refine List.filter_congr fun member _ => ?_
    by_cases here : member.1 = name
    · simp [here, hName]
    · simp [here]
  have hKnownKeys : (known.map Prod.fst).Nodup := by
    rw [List.nodup_iff_count_le_one]
    intro name
    by_cases hName : name ∈ names
    · rw [List.count, List.countP_map, List.countP_eq_length_filter]
      have hOnce := hRecord name hName
      rw [decide_eq_true_eq, ← hFilter name hName] at hOnce
      exact hOnce
    · rw [List.count_eq_zero.mpr]
      · exact Nat.zero_le 1
      · intro hMem
        obtain ⟨member, hMember, rfl⟩ := List.mem_map.mp hMem
        exact hName (hNamed member hMember)
  have hSame : known.Perm fields := by
    rw [List.perm_ext_iff_of_nodup hKnownKeys.of_map hKeys.of_map]
    rintro ⟨name, item⟩
    rw [← lookup_eq_some_iff_mem hKnownKeys, ← lookup_eq_some_iff_mem hKeys]
    by_cases hName : name ∈ names
    · rw [← hMembers name hName, ← lookup_filter known, hFilter name hName, lookup_filter]
    · refine iff_of_false (fun hFound => hName ?_) (fun hFound => hName ?_)
      · exact hNamed _ ((lookup_eq_some_iff_mem hKnownKeys).mp hFound)
      · apply hFields.subset
        exact List.mem_map.mpr ⟨_, (lookup_eq_some_iff_mem hKeys).mp hFound, rfl⟩
  refine .object (hSplit.symm.trans (hSame.append_right _)) fun other hOther => ?_
  have hUnnamed := (List.mem_filter.mp hOther).2
  simpa using hUnnamed

theorem record_iff :
    Record names fields value ↔ value.isRecord names = true ∧
      ∀ entry ∈ names.zipIdx, value.member? entry.2 entry.1 = fields.lookup entry.1 := by
  constructor
  · intro h
    refine ⟨h.isRecord hNodup hFields, ?_⟩
    rintro ⟨name, position⟩ hEntry
    exact h.member?_eq hNodup hFields (List.mk_mem_zipIdx_iff_getElem?.mp hEntry)
  · rintro ⟨hRecord, hMembers⟩
    cases value with
    | array items =>
      refine record_of_array hNodup hFields (beq_iff_eq.mp hRecord) fun position name hName => ?_
      exact hMembers (name, position) (List.mk_mem_zipIdx_iff_getElem?.mpr hName)
    | object members =>
      refine record_of_object hNodup hFields hRecord fun name hName => ?_
      obtain ⟨position, hPosition⟩ := List.mem_iff_getElem?.mp hName
      exact hMembers (name, position) (List.mk_mem_zipIdx_iff_getElem?.mpr hPosition)
    | _ => cases hRecord

end

theorem required_eq_some_iff {α : Type} {position : Nat} {name : String} {read : Json → Option α}
    {field : α} : value.required position name read = some field ↔
      ∃ item, value.member? position name = some item ∧ read item = some field :=
  Option.bind_eq_some_iff

theorem optional_eq_some_iff {α : Type} {write : α → Json} {read : Json → Option α}
    (hNull : ∀ x, write x ≠ null) (hRead : ∀ item x, read item = some x ↔ item = write x)
    {position : Nat} {name : String} {field : Option α} :
    value.optional position name read = some field ↔
      value.member? position name = some (ofOption write field) ∨
        field = none ∧ value.member? position name = none := by
  rw [optional]
  split
  · rename_i hMember
    rw [hMember]
    cases field <;> simp
  · rename_i hMember
    rw [hMember]
    cases field with
    | none => simp [ofOption]
    | some x => simp [ofOption, (hNull x).symm]
  · rename_i item hItem hMember
    rw [hMember]
    cases field with
    | none => simpa [ofOption] using hItem
    | some x => simp [ofOption, hRead]

/-! ## Values of a type -/

theorem natural?_eq_some_iff {bound n : Nat} :
    value.natural? bound = some n ↔ value = natural n ∧ n < bound := by
  cases value with
  | natural m =>
    rw [natural?, Json.natural.injEq]
    constructor
    · intro h
      split at h
      · cases h
        exact ⟨rfl, ‹_›⟩
      · cases h
    · rintro ⟨rfl, hBound⟩
      exact if_pos hBound
  | _ => simp [natural?]

theorem byte?_eq_some_iff {byte : UInt8} :
    value.byte? = some byte ↔ value = natural byte.toNat := by
  rw [byte?, Option.map_eq_some_iff]
  constructor
  · rintro ⟨n, hRead, rfl⟩
    obtain ⟨rfl, hBound⟩ := natural?_eq_some_iff.mp hRead
    rw [UInt8.toNat_ofNat_of_lt' hBound]
  · rintro rfl
    exact ⟨byte.toNat, natural?_eq_some_iff.mpr ⟨rfl, byte.toNat_lt⟩, UInt8.ofNat_toNat⟩

theorem string?_eq_some_iff {text : String} : value.string? = some text ↔ value = string text := by
  cases value <;> simp [string?]

theorem bool?_eq_some_iff {flag : Bool} : value.bool? = some flag ↔ value = bool flag := by
  cases value <;> simp [bool?]

theorem bytes?_eq_some_iff {bytes : List UInt8} :
    value.bytes? = some bytes ↔ value = ofBytes bytes := by
  cases value with
  | array items =>
    rw [bytes?, ofBytes, Json.array.injEq]
    induction items generalizing bytes with
    | nil => simp
    | cons item items ih =>
      rw [List.mapM_cons]
      cases bytes with
      | nil => simp [Option.bind_eq_some_iff]
      | cons byte bytes => simp [Option.bind_eq_some_iff, ih, byte?_eq_some_iff]
  | _ => simp [bytes?, ofBytes]

end Json

end Ls8
