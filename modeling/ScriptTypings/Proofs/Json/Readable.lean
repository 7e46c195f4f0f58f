import ScriptTypings.Json.Reader
import ScriptTypings.Proofs.NameMap
import ScriptTypings.Proofs.Number.Rounding

/-!
# Readable values

A value is readable if no object in it repeats a name, its whole numbers are not too long to be
read, and its other numbers have the form that rounding gives. Every value is the value of one
document without lone surrogates.
-/

namespace ScriptTypings.Json

/-- Whether a value has no items or members. -/
def isScalar : Json → Bool
  | list _ => false
  | object _ => false
  | _ => true

/-- Induction over a value and the values in it. -/
theorem tree_induction {P : Json → Prop}
    (list : ∀ items, (∀ item ∈ items, P item) → P (.list items))
    (object : ∀ members, (∀ m ∈ members, P m.2) → P (.object members))
    (scalar : ∀ value : Json, value.isScalar = true → P value) (value : Json) : P value := by
  refine @Json.rec P (fun items => ∀ item ∈ items, P item) (fun members => ∀ m ∈ members, P m.2)
    (fun member => P member.2) (scalar _ rfl) (fun _ => scalar _ rfl) (fun _ => scalar _ rfl)
    (fun _ => scalar _ rfl) (fun _ => scalar _ rfl) list object nofun ?_ nofun ?_ (fun _ _ => id)
    value
  · intro item items hitem hitems
    exact List.forall_mem_cons.mpr ⟨hitem, hitems⟩
  · intro member members hmember hmembers
    exact List.forall_mem_cons.mpr ⟨hmember, hmembers⟩

mutual

/-- Whether a value is read back as it was written. -/
def isReadable : Json → Bool
  | real x => x.isCanonical
  | whole n => Number.digitCount n.natAbs ≤ mostDigits
  | list items => allReadable items
  | object members => decide (NameMap.names members).Nodup && membersReadable members
  | _ => true

def allReadable : List Json → Bool
  | [] => true
  | item :: items => item.isReadable && allReadable items

def membersReadable : List (String × Json) → Bool
  | [] => true
  | (_, value) :: members => value.isReadable && membersReadable members

end

theorem allReadable_eq_all (items : List Json) : allReadable items = items.all isReadable := by
  induction items with
  | nil => rfl
  | cons item items ih => rw [allReadable, ih, List.all_cons]

theorem membersReadable_eq_all (members : List (String × Json)) :
    membersReadable members = members.all fun m => m.2.isReadable := by
  induction members with
  | nil => rfl
  | cons member members ih => rw [membersReadable, ih, List.all_cons]

theorem isReadable_list_iff {items : List Json} :
    (list items).isReadable = true ↔ ∀ item ∈ items, item.isReadable = true := by
  rw [isReadable, allReadable_eq_all, List.all_eq_true]

theorem isReadable_object_iff {members : List (String × Json)} :
    (object members).isReadable = true ↔
      (NameMap.names members).Nodup ∧ ∀ m ∈ members, m.2.isReadable = true := by
  rw [isReadable, membersReadable_eq_all, Bool.and_eq_true, decide_eq_true_eq, List.all_eq_true]

/-! ### Values and documents -/

mutual

/-- The document of a value. -/
def document : Json → Document
  | null => .null
  | bool value => .bool value
  | whole n => .whole n
  | real x => .real x
  | text s => .text (CodePoint.ofString s)
  | list items => .list (itemDocuments items)
  | object members => .object (memberDocuments members)

def itemDocuments : List Json → List Document
  | [] => []
  | item :: items => item.document :: itemDocuments items

def memberDocuments : List (String × Json) → List (List CodePoint × Document)
  | [] => []
  | (name, value) :: members => (CodePoint.ofString name, value.document) :: memberDocuments members

end

theorem itemDocuments_eq_map (items : List Json) : itemDocuments items = items.map document := by
  induction items with
  | nil => rfl
  | cons item items ih => rw [itemDocuments, ih, List.map_cons]

theorem memberDocuments_eq_map (members : List (String × Json)) :
    memberDocuments members = members.map fun m => (CodePoint.ofString m.1, m.2.document) := by
  induction members with
  | nil => rfl
  | cons member members ih => rw [memberDocuments, ih, List.map_cons]

theorem document_list (items : List Json) :
    (list items).document = .list (items.map document) := by
  rw [document, itemDocuments_eq_map]

theorem document_object (members : List (String × Json)) : (object members).document =
    .object (members.map fun m => (CodePoint.ofString m.1, m.2.document)) := by
  rw [document, memberDocuments_eq_map]

theorem CodePoint.toString_ofString (s : String) : toString (ofString s) = s := by
  have hshown : shown ∘ char = id := rfl
  rw [toString, ofString, List.map_map, hshown, List.map_id, String.ofList_toList]

theorem CodePoint.ofString_injective : Function.Injective ofString :=
  Function.LeftInverse.injective toString_ofString

theorem CodePoint.all_isChar_ofString (s : String) : (ofString s).all isChar = true := by
  rw [ofString, List.all_map]
  exact List.all_eq_true.mpr fun _ _ => rfl

theorem CodePoint.eq_ofString {points : List CodePoint} (h : points.all isChar = true) :
    points = ofString (toString points) := by
  rw [ofString, toString, String.toList_ofList, List.map_map]
  refine ((List.map_congr_left fun point hpoint => ?_).trans (List.map_id' points)).symm
  cases point with
  | char c => rfl
  | lone surrogate => exact absurd (List.all_eq_true.mp h _ hpoint) Bool.false_ne_true

namespace Document

/-- Whether a document has no items or members. -/
def isScalar : Document → Bool
  | list _ => false
  | object _ => false
  | _ => true

/-- Induction over a document and the documents in it. -/
theorem tree_induction {P : Document → Prop}
    (list : ∀ items, (∀ item ∈ items, P item) → P (.list items))
    (object : ∀ members, (∀ m ∈ members, P m.2) → P (.object members))
    (scalar : ∀ document : Document, document.isScalar = true → P document)
    (document : Document) : P document := by
  refine @Document.rec P (fun items => ∀ item ∈ items, P item)
    (fun members => ∀ m ∈ members, P m.2) (fun member => P member.2) (scalar _ rfl)
    (fun _ => scalar _ rfl) (fun _ => scalar _ rfl) (fun _ => scalar _ rfl) (fun _ => scalar _ rfl)
    list object nofun ?_ nofun ?_ (fun _ _ => id) document
  · intro item items hitem hitems
    exact List.forall_mem_cons.mpr ⟨hitem, hitems⟩
  · intro member members hmember hmembers
    exact List.forall_mem_cons.mpr ⟨hmember, hmembers⟩

theorem itemValues_eq_map (items : List Document) : itemValues items = items.map value := by
  induction items with
  | nil => rfl
  | cons item items ih => rw [itemValues, ih, List.map_cons]

theorem memberValues_eq_map (members : List (List CodePoint × Document)) :
    memberValues members = members.map fun m => (CodePoint.toString m.1, m.2.value) := by
  induction members with
  | nil => rfl
  | cons member members ih => rw [memberValues, ih, List.map_cons]

theorem names_memberValues (members : List (List CodePoint × Document)) :
    NameMap.names (memberValues members) = (NameMap.names members).map CodePoint.toString := by
  rw [memberValues_eq_map, NameMap.names, NameMap.names, List.map_map, List.map_map]
  rfl

/-- Names of characters stay distinct. -/
theorem nodup_names_memberValues {members : List (List CodePoint × Document)}
    (hnames : (NameMap.names members).Nodup)
    (hchars : ∀ m ∈ members, m.1.all CodePoint.isChar = true) :
    (NameMap.names (memberValues members)).Nodup := by
  rw [names_memberValues]
  refine List.pairwise_map.mpr (hnames.imp_of_mem fun hname hname' hne hsame => hne ?_)
  obtain ⟨m, hm, rfl⟩ := List.mem_map.mp hname
  obtain ⟨m', hm', rfl⟩ := List.mem_map.mp hname'
  rw [CodePoint.eq_ofString (hchars m hm), CodePoint.eq_ofString (hchars m' hm'), hsame]

theorem find?_memberValues {members : List (List CodePoint × Document)}
    (hchars : ∀ m ∈ members, m.1.all CodePoint.isChar = true) (name : String) :
    NameMap.find? name (memberValues members) =
      (NameMap.find? (CodePoint.ofString name) members).map value := by
  induction members with
  | nil => rfl
  | cons member members ih =>
    obtain ⟨hmember, hmembers⟩ := List.forall_mem_cons.mp hchars
    rw [memberValues, NameMap.find?_cons, NameMap.find?_cons, ih hmembers]
    by_cases hname : CodePoint.toString member.1 = name
    · rw [if_pos hname, if_pos (hname ▸ CodePoint.eq_ofString hmember)]
      rfl
    · rw [if_neg hname, if_neg fun hsame => hname (by rw [hsame, CodePoint.toString_ofString])]

theorem isEncodable_list (items : List Document) :
    (list items).isEncodable = items.all isEncodable := by
  rw [isEncodable]
  induction items with
  | nil => rfl
  | cons item items ih => rw [itemsEncodable, ih, List.all_cons]

theorem isEncodable_object (members : List (List CodePoint × Document)) :
    (object members).isEncodable =
      members.all fun m => m.1.all CodePoint.isChar && m.2.isEncodable := by
  rw [isEncodable]
  induction members with
  | nil => rfl
  | cons member members ih => rw [membersEncodable, ih, List.all_cons]

end Document

/-- A value that repeats no name is the value of its document. -/
theorem value_document {value : Json} (h : value.isReadable = true) :
    value.document.value = value := by
  induction value using tree_induction with
  | list items ih =>
    rw [isReadable_list_iff] at h
    rw [document_list, Document.value, Document.itemValues_eq_map, List.map_map]
    exact congrArg list ((List.map_congr_left fun item hitem => ih item hitem (h item hitem)).trans
      (List.map_id' items))
  | object members ih =>
    obtain ⟨hnames, hvalues⟩ := isReadable_object_iff.mp h
    have hmembers : Document.memberValues
        (members.map fun m => (CodePoint.ofString m.1, m.2.document)) = members := by
      rw [Document.memberValues_eq_map, List.map_map]
      refine (List.map_congr_left fun m hm => ?_).trans (List.map_id' members)
      exact Prod.ext (CodePoint.toString_ofString m.1) (ih m hm (hvalues m hm))
    rw [document_object, Document.value, hmembers, NameMap.ofPairs_of_nodup hnames]
  | scalar value hscalar =>
    cases value with
    | text s => rw [document, Document.value, CodePoint.toString_ofString]
    | list items => cases hscalar
    | object members => cases hscalar
    | _ => rfl

theorem isEncodable_document (value : Json) : value.document.isEncodable = true := by
  induction value using tree_induction with
  | list items ih =>
    rw [document_list, Document.isEncodable_list, List.all_map, List.all_eq_true]
    exact ih
  | object members ih =>
    rw [document_object, Document.isEncodable_object, List.all_map, List.all_eq_true]
    exact fun m hm => Bool.and_eq_true_iff.mpr ⟨CodePoint.all_isChar_ofString m.1, ih m hm⟩
  | scalar value hscalar =>
    cases value with
    | text s => exact CodePoint.all_isChar_ofString s
    | list items => cases hscalar
    | object members => cases hscalar
    | _ => rfl

end ScriptTypings.Json
