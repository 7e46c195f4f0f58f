import ScriptTypings.Proofs.Corpus.WellFormed
import ScriptTypings.Proofs.Surface.Declared

/-!
# Well-typed surfaces

A surface is well typed if every value on it that is meant as a text is one. Well-typed declarations
can be attached to it, and dropping listeners changes nothing.
-/

namespace ScriptTypings

structure PropertyMember.IsWellTyped (member : PropertyMember) : Prop where
  typeName : member.typeName.isText = true
  description : member.description.isText = true

structure InterfaceDeclaration.IsWellTyped (d : InterfaceDeclaration) : Prop where
  description : d.description.isText = true
  bases : ∀ base ∈ d.bases, base.isText = true
  typeParameters : ∀ parameter ∈ d.typeParameters, parameter.isText = true
  methods : ∀ m ∈ d.methods, m.2.all Signature.isWellTyped = true
  properties : ∀ p ∈ d.properties, p.2.IsWellTyped

structure ClassHeader.IsWellTyped (header : ClassHeader) : Prop where
  description : header.description.isText = true
  interfaces : ∀ type ∈ header.interfaces, type.isText = true
  constructor : (header.constructor.getD []).all Signature.isWellTyped = true

namespace Surface

mutual

def IsWellTyped : Surface → Prop
  | space _ _ description members => description.isText = true ∧ AreWellTyped members
  | enumeration _ _ description members => description.isText = true ∧ AreWellTyped members
  | cls header statics prototype =>
    header.IsWellTyped ∧ AreWellTyped statics ∧ AreWellTyped prototype
  | record _ _ description members =>
    description.isText = true ∧ members.all Slot.isWellTyped = true
  | delegate _ _ description signature =>
    description.isText = true ∧ signature.isWellTyped = true
  | interface declaration => declaration.IsWellTyped
  | function signatures => signatures.all Signature.isWellTyped = true
  | event handler description => handler.isText = true ∧ description.isText = true
  | property member => member.IsWellTyped
  | unresolved _ => True

/-- Whether all members are well typed. -/
def AreWellTyped : List (String × Surface) → Prop
  | [] => True
  | (_, node) :: members => node.IsWellTyped ∧ AreWellTyped members

end

theorem areWellTyped_iff {ms : List (String × Surface)} :
    AreWellTyped ms ↔ ∀ m ∈ ms, m.2.IsWellTyped := by
  induction ms with
  | nil => exact ⟨fun _ => nofun, fun _ => trivial⟩
  | cons m ms ih =>
    rw [List.forall_mem_cons, ← ih]
    exact Iff.rfl

theorem AreWellTyped.of_subset {ms ms' : List (String × Surface)} (h : AreWellTyped ms')
    (hsubset : ms ⊆ ms') : AreWellTyped ms :=
  areWellTyped_iff.mpr fun m hm => areWellTyped_iff.mp h m (hsubset hm)

theorem isWellTyped_attach {additions : Nat → List (String × Surface)}
    (hadditions : ∀ number, ∀ m ∈ additions number, m.2.IsWellTyped) :
    (∀ s : Surface, s.IsWellTyped → ∀ number, (attach additions number s).IsWellTyped) ∧
      ∀ ms, AreWellTyped ms → ∀ number, AreWellTyped (attachAll additions number ms) := by
  refine tree_induction ?space ?enumeration ?cls ?leaf ?nil ?cons
  case space =>
    intro name fullname description members ih h number
    refine ⟨h.1, areWellTyped_iff.mpr fun m hm => ?_⟩
    rcases List.mem_append.mp hm with hm | hm
    · exact areWellTyped_iff.mp (ih h.2 _) m hm
    · exact hadditions number m hm
  case enumeration =>
    intro name fullname description members ih h number
    exact ⟨h.1, ih h.2 number⟩
  case cls =>
    intro header statics prototype ihs ihp h number
    exact ⟨h.1, ihs h.2.1 _, ihp h.2.2 _⟩
  case leaf =>
    intro s hs h number
    rw [attach_of_leaf hs]
    exact h
  case nil =>
    intro _ number
    trivial
  case cons =>
    intro name node members ihn ihm h number
    exact ⟨ihn h.1 _, ihm h.2 _⟩

theorem isWellTyped_withListeners :
    (∀ s : Surface, s.IsWellTyped → s.withListeners.IsWellTyped) ∧
      ∀ ms, AreWellTyped ms → AreWellTyped (withListenersOf ms) := by
  refine tree_induction ?space ?enumeration ?cls ?leaf ?nil ?cons
  case space =>
    intro name fullname description members ih h
    exact ⟨h.1, ih h.2⟩
  case enumeration =>
    intro name fullname description members ih h
    exact ⟨h.1, ih h.2⟩
  case cls =>
    intro header statics prototype ihs ihp h
    exact ⟨⟨h.1.description, h.1.interfaces, h.1.constructor⟩,
      (ihs h.2.1).of_subset (withoutListeners_sublist _).subset,
      (ihp h.2.2).of_subset (withoutListeners_sublist _).subset⟩
  case leaf =>
    intro s hs h
    rw [withListeners_of_leaf hs]
    exact h
  case nil =>
    intro _
    trivial
  case cons =>
    intro name node members ihn ihm h
    exact ⟨ihn h.1, ihm h.2⟩

end Surface

end ScriptTypings
