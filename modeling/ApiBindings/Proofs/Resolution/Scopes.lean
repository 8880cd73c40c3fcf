import ApiBindings.Proofs.Resolution.References
/-!
# The scopes of references

What is derived for a property is global, because the property is the owner of its type
and the records of a property become global classes.  Only an owner whose records stay
local brings a local reference about, and only at the address of the request itself.  So
a global class can have come by a local reference in one way: an earlier request, for
such an owner, has resolved the type of one of its properties by itself, and what it
returned was remembered.
-/

namespace ApiBindings

/-- One of the requests has resolved the type at this address by itself, for an owner
whose records stay local, and has returned this reference. -/
def ResolvedLocally (settings : Settings) (requests : List Request) (address : Address)
    (ref : TypeRef) : Prop :=
  ∃ first request rest, requests = first ++ request :: rest ∧
    request.address = address ∧ ¬request.owner.MakesGlobal ∧
    request.result settings (.after settings first) = .ok ref

/-- Earlier requests, after which the global types were among those before, have stored
what this reference names, and one of them has returned it for the type of a property
that it resolved by itself. -/
def TakenAlong (settings : Settings) (requests : List Request) (before : List NominalType)
    (ref : TypeRef) : Prop :=
  ∃ earlier, earlier <+: requests ∧
    (Knowledge.after settings earlier).catalogue.globals <+: before ∧
    (Knowledge.after settings earlier).catalogue.Grounds settings ref ∧
    ∃ place position, ResolvedLocally settings earlier (Address.property place position) ref

section
variable {settings : Settings} {requests : List Request}

theorem ResolvedLocally.concat {address : Address} {ref : TypeRef}
    (hresolved : ResolvedLocally settings requests address ref) (request : Request) :
    ResolvedLocally settings (requests ++ [request]) address ref := by
  obtain ⟨first, own, rest, rfl, hown⟩ := hresolved
  exact ⟨first, own, rest ++ [request], by simp, hown⟩

theorem TakenAlong.concat {before : List NominalType} {ref : TypeRef}
    (htaken : TakenAlong settings requests before ref) (request : Request) :
    TakenAlong settings (requests ++ [request]) before ref := by
  obtain ⟨earlier, hearlier, htaken⟩ := htaken
  exact ⟨earlier, hearlier.trans (List.prefix_append _ _), htaken⟩

end

/-! ## One request -/

/-- The references from the fields of global classes are global or of the kind that
`allowed` admits for the global types before the class. -/
def Catalogue.RefersGlobally (catalogue : Catalogue)
    (allowed : List NominalType → TypeRef → Prop) : Prop :=
  ∀ before type after, catalogue.globals = before ++ .ofClass type :: after →
    type.RefersTo fun ref => ref.IsGlobal ∨ allowed before ref

theorem Catalogue.RefersGlobally.addGlobal {catalogue : Catalogue}
    {allowed : List NominalType → TypeRef → Prop} (hrefers : catalogue.RefersGlobally allowed)
    {type : NominalType}
    (htype : ∀ added, type = .ofClass added →
      added.RefersTo fun ref => ref.IsGlobal ∨ allowed catalogue.globals ref) :
    (catalogue.addGlobal type).RefersGlobally allowed := by
  intro before added after hsplit
  rcases List.append_cons_eq_append_singleton hsplit.symm with ⟨rest, hrest⟩ | ⟨rfl, hadded⟩
  · exact hrefers before added rest hrest
  · exact htype added hadded.symm

namespace Resolving

section
variable {settings : Settings} {start : Knowledge} {owner other : Owner}
  {here address : Address} {ref : TypeRef}

end

end Resolving

/-! ## All requests -/

end ApiBindings
