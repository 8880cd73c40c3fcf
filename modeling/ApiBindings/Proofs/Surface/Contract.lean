import ApiBindings.Proofs.Resolution.Contract
import ApiBindings.Proofs.Surface.Run
/-!
# What declaring keeps

Declaring an interface adds to what is known only by resolving the types of its
members.  What a contract says of resolving it therefore says of declaring.
-/

namespace ApiBindings
namespace Resolving
namespace Contract

open Surface

variable {settings : Settings} {C : Contract settings}
  {interface : ApiBindings.Interface} {address : Address} {known : Knowledge}

/-- The contract admits the types of a member at this address. -/
def SuitsMember (C : Contract settings) (interface : ApiBindings.Interface)
    (address : Address) : Prop :=
  ∀ owner position, owner.interface = interface.name → C.suits owner (position :: address)

theorem meets_resolveParams {member : Member} {position : Nat}
    {params : List (Slot TypeNode)} (hsuits : C.SuitsMember interface address)
    (hinv : C.inv known) :
    Meets (resolveParams settings interface member address position params) C.inv
      (fun _ _ => True) known := by
  induction params generalizing position known with
  | nil => exact .pure hinv trivial
  | cons param rest ih =>
      unfold resolveParams
      refine (meets_resolveType param.type (hsuits _ position rfl) hinv).bind ?_
      intro type after _ hinv _
      have hrest : Meets
          (resolveParams settings interface member address (position + 1) rest) C.inv
          (fun _ _ => True) after := ih hinv
      refine hrest.bind ?_
      intro others after _ hinv _
      exact .pure hinv trivial

theorem meets_declareMethod {member : Member} (hsuits : C.SuitsMember interface address)
    (hinv : C.inv known) :
    Meets (declareMethod settings interface address member) C.inv
      (fun _ _ => True) known := by
  unfold declareMethod
  refine .ofExcept_bind hinv fun signatures _ => ?_
  split
  next => exact .pure hinv trivial
  next =>
    refine (meets_resolve member.type (hsuits _ 0 rfl) hinv).bind ?_
    intro returnType after _ hinv _
    refine (meets_resolveParams hsuits hinv).bind ?_
    intro params after _ hinv _
    split
    next => exact .pure hinv trivial
    next => exact .throw hinv
    next => exact .ofExcept hinv

theorem meets_declareMember {member : Member} (hsuits : C.SuitsMember interface address)
    (hinv : C.inv known) :
    Meets (declareMember settings interface address member) C.inv
      (fun _ _ => True) known := by
  unfold declareMember
  split
  next =>
    refine (meets_resolve member.type (hsuits _ 0 rfl) hinv).bind ?_
    intro type after _ hinv _
    exact .ofExcept_bind hinv fun listener _ => .pure hinv trivial
  next =>
    refine (meets_declareMethod hsuits hinv).bind ?_
    intro methods after _ hinv _
    exact .pure hinv trivial

theorem meets_declareMembers {position : Nat} {members : List Member}
    (hsuits : ∀ position, C.SuitsMember interface (position :: address))
    (hinv : C.inv known) :
    Meets (declareMembers settings interface address position members) C.inv
      (fun _ _ => True) known := by
  induction members generalizing position known with
  | nil => exact .pure hinv trivial
  | cons member rest ih =>
      rw [declareMembers_cons]
      refine (meets_declareMember (hsuits position) hinv).bind ?_
      intro own after _ hinv _
      refine (ih hinv).bind ?_
      intro others after _ hinv _
      exact .pure hinv trivial

theorem meets_declareInterface
    (hsuits : ∀ position, C.SuitsMember interface (position :: address))
    (hinv : C.inv known) :
    Meets (declareInterface settings address interface) C.inv (fun _ _ => True) known := by
  unfold declareInterface
  refine .ofExcept_bind hinv fun supertypes _ => ?_
  refine (meets_declareMembers hsuits hinv).bind ?_
  intro members after _ hinv _
  refine .get_bind (.ofExcept_bind hinv fun nestedClasses _ => ?_)
  exact .pure hinv trivial

theorem meets_declareInterfaces {position : Nat} {interfaces : List ApiBindings.Interface}
    (hsuits : ∀ owner address, C.suits owner address) (hinv : C.inv known) :
    Meets (declareInterfaces settings position interfaces) C.inv
      (fun _ _ => True) known := by
  induction interfaces generalizing position known with
  | nil => exact .pure hinv trivial
  | cons interface rest ih =>
      unfold declareInterfaces
      refine (meets_declareInterface (fun _ _ _ _ => hsuits _ _) hinv).bind ?_
      intro first after _ hinv _
      refine (ih hinv).bind ?_
      intro others after _ hinv _
      exact .pure hinv trivial

end Contract
end Resolving
end ApiBindings
