import ScriptTypings.Proofs.Json.Readable
import ScriptTypings.Proofs.NameMap

/-!
# Values with sorted members

Sorting the members of all objects keeps a value readable, and the members are found as before. All
characters of its texts and names stay.
-/

namespace ScriptTypings.Json

theorem sortItems_eq_map (items : List Json) : sortItems items = items.map sortMembers := by
  induction items with
  | nil => rfl
  | cons item items ih => rw [sortItems, ih, List.map_cons]

theorem sortEntries_eq_mapValues (members : List (String × Json)) :
    sortEntries members = NameMap.mapValues sortMembers members := by
  induction members with
  | nil => rfl
  | cons member members ih =>
    rw [sortEntries, ih]
    rfl

theorem sortMembers_object (members : List (String × Json)) :
    (object members).sortMembers =
      object (NameMap.mapValues sortMembers (NameMap.sorted members)) := by
  rw [sortMembers, sortEntries_eq_mapValues, NameMap.sorted_mapValues]

theorem sortMembers_of_isText {value : Json} (h : value.isText = true) :
    value.sortMembers = value := by
  cases value with
  | text s => rfl
  | _ => cases h

theorem sortMembers_list (items : List Json) :
    (list items).sortMembers = list (items.map sortMembers) := by
  rw [sortMembers, sortItems_eq_map]

theorem map_sortMembers_of_isText {items : List Json} (h : items.all isText = true) :
    items.map sortMembers = items := by
  rw [List.all_eq_true] at h
  exact (List.map_congr_left fun item hitem => sortMembers_of_isText (h item hitem)).trans
    (List.map_id' _)

/-- Members that are named once are found in the sorted object as in the unsorted one. -/
theorem find?_sortMembers {members : List (String × Json)} (h : (NameMap.names members).Nodup)
    (name : String) :
    NameMap.find? name (NameMap.mapValues sortMembers (NameMap.sorted members)) =
      (NameMap.find? name members).map sortMembers := by
  rw [NameMap.find?_mapValues, NameMap.find?_sorted h]

theorem isReadable_sortMembers (value : Json) (h : value.isReadable = true) :
    value.sortMembers.isReadable = true := by
  induction value using tree_induction with
  | list items ih =>
    rw [isReadable_list_iff] at h
    rw [sortMembers_list, isReadable_list_iff, List.forall_mem_map]
    exact fun item hitem => ih item hitem (h item hitem)
  | object members ih =>
    obtain ⟨hnames, hvalues⟩ := isReadable_object_iff.mp h
    rw [sortMembers_object, isReadable_object_iff, NameMap.names_mapValues]
    refine ⟨NameMap.nodup_names_sorted hnames, List.forall_mem_map.mpr fun m hm => ?_⟩
    have hmember := (NameMap.sorted_perm members).mem_iff.mp hm
    exact ih m hmember (hvalues m hmember)
  | scalar value hscalar =>
    cases value with
    | list items => cases hscalar
    | object members => cases hscalar
    | _ => exact h

/-! ### Characters for lone surrogates -/

theorem hasStandIn_list (items : List Json) : (list items).hasStandIn = items.any hasStandIn := by
  rw [hasStandIn]
  induction items with
  | nil => rfl
  | cons item items ih => rw [itemsStandIn, ih, List.any_cons]

theorem hasStandIn_object (members : List (String × Json)) :
    (object members).hasStandIn = members.any fun m => standsIn m.1 || m.2.hasStandIn := by
  rw [hasStandIn]
  induction members with
  | nil => rfl
  | cons member members ih => rw [membersStandIn, ih, List.any_cons]

theorem hasStandIn_sortMembers (value : Json) :
    value.sortMembers.hasStandIn = value.hasStandIn := by
  induction value using tree_induction with
  | list items ih =>
    rw [sortMembers_list, hasStandIn_list, hasStandIn_list, List.any_map, Bool.eq_iff_iff,
      List.any_eq_true, List.any_eq_true]
    refine exists_congr fun item => and_congr_right fun hitem => ?_
    rw [Function.comp_apply, ih item hitem]
  | object members ih =>
    rw [sortMembers_object, hasStandIn_object, hasStandIn_object, NameMap.mapValues, List.any_map,
      Bool.eq_iff_iff, List.any_eq_true, List.any_eq_true]
    refine exists_congr fun m => ?_
    rw [(NameMap.sorted_perm members).mem_iff]
    exact and_congr_right fun hm => by rw [Function.comp_apply, ih m hm]
  | scalar value hscalar =>
    cases value with
    | list items => cases hscalar
    | object members => cases hscalar
    | _ => rfl

end ScriptTypings.Json
