import ScriptTypings.Proofs.NameMap
import ScriptTypings.Proofs.Surface.Declared

/-!
# The surface without descriptions

`Surface.withoutDescriptions` empties every description on a surface, those of parameters, results
and members included; nothing else is changed. `Surface.signatures` lists the signatures on it.
-/

namespace ScriptTypings

def Slot.withoutDescription (slot : Slot) : Slot :=
  { slot with description := "" }

/-- The result with empty descriptions of its own and of its fields. -/
def Returned.withoutDescriptions : Returned → Returned
  | .typed typeName _ => .typed typeName ""
  | .fields members _ => .fields (members.map Slot.withoutDescription) ""
  | other => other

def Signature.withoutDescriptions (signature : Signature) : Signature :=
  { signature with
    description := ""
    parameters := signature.parameters.map Slot.withoutDescription
    returned := signature.returned.withoutDescriptions }

def PropertyMember.withoutDescription (member : PropertyMember) : PropertyMember :=
  { member with description := "" }

def InterfaceDeclaration.withoutDescriptions (d : InterfaceDeclaration) : InterfaceDeclaration :=
  { d with
    description := ""
    methods := NameMap.mapValues (List.map Signature.withoutDescriptions) d.methods
    properties := NameMap.mapValues PropertyMember.withoutDescription d.properties }

def ClassHeader.withoutDescriptions (header : ClassHeader) : ClassHeader :=
  { header with
    description := ""
    constructor := header.constructor.map (List.map Signature.withoutDescriptions) }

namespace Surface

mutual

/-- The surface with every description empty. -/
def withoutDescriptions : Surface → Surface
  | space name fullname _ members => space name fullname "" (withoutDescriptionsOf members)
  | enumeration name fullname _ members =>
    enumeration name fullname "" (withoutDescriptionsOf members)
  | cls header statics prototype =>
    cls header.withoutDescriptions (withoutDescriptionsOf statics)
      (withoutDescriptionsOf prototype)
  | record name fullname _ members =>
    record name fullname "" (members.map Slot.withoutDescription)
  | delegate name fullname _ signature => delegate name fullname "" signature.withoutDescriptions
  | interface declaration => interface declaration.withoutDescriptions
  | function signatures => function (signatures.map Signature.withoutDescriptions)
  | event handler _ => event handler ""
  | property member => property member.withoutDescription
  | unresolved placeholder => unresolved placeholder

def withoutDescriptionsOf : List (String × Surface) → List (String × Surface)
  | [] => []
  | (name, node) :: members => (name, node.withoutDescriptions) :: withoutDescriptionsOf members

end

theorem withoutDescriptionsOf_eq_map (ms : List (String × Surface)) :
    withoutDescriptionsOf ms = ms.map fun m => (m.1, m.2.withoutDescriptions) := by
  induction ms with
  | nil => rfl
  | cons m ms ih => rw [withoutDescriptionsOf, ih, List.map_cons]

theorem filter_withoutDescriptionsOf {test : String × Surface → Bool}
    (htest : ∀ m : String × Surface, test (m.1, m.2.withoutDescriptions) = test m)
    (ms : List (String × Surface)) : (withoutDescriptionsOf ms).filter test =
      (ms.filter test).map fun m => (m.1, m.2.withoutDescriptions) := by
  rw [withoutDescriptionsOf_eq_map, List.filter_map]
  exact congrArg _ (List.filter_congr fun m _ => htest m)

@[simp] theorem isNested_withoutDescriptions (s : Surface) :
    s.withoutDescriptions.isNested = s.isNested := by
  cases s <;> rfl

mutual

/-- All signatures on a surface, those of constructors and methods among them. -/
def signatures : Surface → List Signature
  | space _ _ _ members => signaturesOf members
  | enumeration _ _ _ members => signaturesOf members
  | cls header statics prototype =>
    header.constructor.getD [] ++ signaturesOf statics ++ signaturesOf prototype
  | delegate _ _ _ signature => [signature]
  | interface declaration => declaration.methods.flatMap Prod.snd
  | function signatures => signatures
  | _ => []

def signaturesOf : List (String × Surface) → List Signature
  | [] => []
  | (_, node) :: members => node.signatures ++ signaturesOf members

end

theorem signatures_subset_signaturesOf {m : String × Surface} {ms : List (String × Surface)}
    (h : m ∈ ms) : m.2.signatures ⊆ signaturesOf ms := by
  induction ms with
  | nil => cases h
  | cons first ms ih =>
    rw [signaturesOf]
    cases h with
    | head => exact List.subset_append_left _ _
    | tail _ h => exact List.subset_append_of_subset_right _ (ih h)

end Surface

end ScriptTypings
