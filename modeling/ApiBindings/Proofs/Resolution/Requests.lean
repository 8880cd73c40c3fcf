import Mathlib.Data.List.Induction
import ApiBindings.Proofs.Resolution.Registration
/-!
# Sequences of requests

The types of a description are resolved one after the other, at any addresses: a type
as a whole, that of a property by itself, and either of them again for another owner.
A request that fails does not end the sequence, and what it added before it failed is
there for the requests after it.

A request is one of the steps of registration, and what is known after requests is one
of the moments that can be reached while types are resolved.  So whatever holds after
all steps, or at all such moments, holds after requests.
-/

namespace ApiBindings

/-- A type of the description, the address at which it stands, and the owner to resolve
it for. -/
structure Request where
  owner : Owner
  address : Address
  type : Option TypeNode
deriving Repr

/-- A request as a step of registration. -/
def Request.step (request : Request) : Registration :=
  .resolve request.owner request.address request.type

/-- What a request returns. -/
def Request.result (settings : Settings) (request : Request) (known : Knowledge) :
    Except Failure TypeRef :=
  (Resolving.outcome (resolve settings request.owner request.address request.type) known).1

/-- What is known after requests, those that failed included. -/
def Knowledge.after (settings : Settings) (requests : List Request) : Knowledge :=
  attemptAll settings (requests.map Request.step) .empty

/-- What can be known while types are resolved, between requests and in the midst
of one.  Where a record becomes a class, what is known was reached by converting
the parts of its type before it and resolving the properties around it. -/
inductive Knowledge.Reached (settings : Settings) : Knowledge → Prop
  | empty : Reached settings .empty
  | openOwner {known : Knowledge} (owner : Option Text) :
      Reached settings known →
      Reached settings ((Resolving.openOwner owner).outcome known).2
  | convert {known : Knowledge} (owner : Owner) (address : Address) (depth : Depth)
      (fixed : Bool) (node : TypeNode) :
      Reached settings known →
      Reached settings
        (Resolving.outcome (convert settings owner address depth fixed none node) known).2
  | resolve {known : Knowledge} (owner : Owner) (address : Address)
      (type : Option TypeNode) :
      Reached settings known →
      Reached settings
        (Resolving.outcome (resolve settings owner address type) known).2

/-- What a contract keeps for all owners and addresses holds of everything that
can become known. -/
theorem Resolving.Contract.inv_of_reached {settings : Settings} {C : Contract settings}
    {known : Knowledge} (hreached : known.Reached settings)
    (hsuits : ∀ owner address, C.suits owner address)
    (hderives : ∀ owner address, C.derives owner address) (hempty : C.inv .empty) :
    C.inv known := by
  induction hreached with
  | empty => exact hempty
  | openOwner owner _ ih =>
      exact C.openOwner (hderives ⟨[], .method, [], [], owner.getD []⟩ []) ih
  | convert owner address depth fixed node _ ih =>
      exact (meets_convert depth fixed none node (hderives owner address) ih
        (by simp)).keeps
  | resolve owner address type _ ih =>
      exact (meets_resolve type (hsuits owner address) ih).keeps

end ApiBindings
