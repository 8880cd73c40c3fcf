import ApiBindings.Proofs.Resolution.Parallel
import ApiBindings.Proofs.Resolution.Variants
import ApiBindings.Proofs.Schema.Node
import ApiBindings.Proofs.Surface.OverloadClash
import ApiBindings.Proofs.Surface.Turn
/-!
# Hand-written signatures

A hand-written signature replaces the overloads of its methods and does nothing else.
With an empty list of signatures a method is left out, just as if the description did
not have it.  With signatures of their own methods are still resolved, so that the same
types are registered in the same order as without.

Two runs are compared member by member.  When it is the turn of a member both know the
same types, and neither remembers anything at its address or behind it.  The addresses
may differ, since a member that is not there does not count.
-/

namespace ApiBindings

open Resolving (outcome outcome_bind outcome_pure outcome_ofExcept Gives Parallel Twins
  ClearFrom)

/-! ## What is compared -/

/-- These settings with this table of hand-written signatures. -/
def Settings.signing (settings : Settings) (entries : List (Text × Json)) : Settings :=
  { settings with customSignatures := some (.obj entries) }

/-- An interface without its methods and properties of this path. -/
def Interface.without (path : Text) (interface : Interface) : Interface :=
  { interface with
    members := interface.members.filter fun member =>
      decide (member.kind = .event ∨ member.path ≠ path) }

namespace Surface

/-- All overloads are named after the member. -/
def NamedFor (member : Member) (overloads : List Overload) : Prop :=
  ∀ overload ∈ overloads, overload.name = member.name

/-- The overloads of members in order, twice: with those that were derived and with
these signatures for the members of a path.  They differ there only. -/
inductive MethodsBut (path : Text) (signatures : List Json) :
    List Member → List Overload → List Overload → Prop
  | nil : MethodsBut path signatures [] [] []
  | event {member : Member} {rest : List Member} {others others' : List Overload}
      (hkind : member.kind = .event)
      (hothers : MethodsBut path signatures rest others others') :
      MethodsBut path signatures (member :: rest) others others'
  | same {member : Member} {rest : List Member} {own others others' : List Overload}
      (hkind : member.kind ≠ .event) (hpath : member.path ≠ path)
      (hown : NamedFor member own)
      (hothers : MethodsBut path signatures rest others others') :
      MethodsBut path signatures (member :: rest) (own ++ others) (own ++ others')
  | written {member : Member} {rest : List Member} {own own' others others' : List Overload}
      (hkind : member.kind ≠ .event) (hpath : member.path = path)
      (hown : NamedFor member own) (hown' : NamedFor member own')
      (hsignatures : own'.map (·.signature) = signatures)
      (hothers : MethodsBut path signatures rest others others') :
      MethodsBut path signatures (member :: rest) (own ++ others) (own' ++ others')

/-- Two declarations of an interface that differ in the methods of a path only. -/
structure Interface.SameBut (path : Text) (signatures : List Json)
    (interface : ApiBindings.Interface) (declared declared' : Interface) : Prop where
  name : declared'.name = declared.name
  comment : declared'.comment = declared.comment
  supertypes : declared'.supertypes = declared.supertypes
  listeners : declared'.listeners = declared.listeners
  nestedClasses : declared'.nestedClasses = declared.nestedClasses
  methods : MethodsBut path signatures interface.members declared.methods declared'.methods

/-- Interfaces in order, declared twice. -/
inductive InterfacesBut (path : Text) (signatures : List Json) :
    List ApiBindings.Interface → List Interface → List Interface → Prop
  | nil : InterfacesBut path signatures [] [] []
  | cons {interface : ApiBindings.Interface} {rest : List ApiBindings.Interface}
      {declared declared' : Interface} {others others' : List Interface}
      (hfirst : declared.SameBut path signatures interface declared')
      (hothers : InterfacesBut path signatures rest others others') :
      InterfacesBut path signatures (interface :: rest) (declared :: others)
        (declared' :: others')

/-- Two surfaces of a description that differ in the methods of a path only. -/
structure SameBut (path : Text) (signatures : List Json)
    (interfaces : List ApiBindings.Interface) (surface surface' : Surface) : Prop where
  interfaces : InterfacesBut path signatures interfaces surface.interfaces surface'.interfaces
  classes : surface'.classes = surface.classes
  enums : surface'.enums = surface.enums
  banner : surface'.banner = surface.banner

end Surface

/-! ## Tables of signatures -/

theorem Text.find?_filter_ne {α : Type} (path other : Text) (entries : List (Text × α)) :
    Text.find? other (entries.filter (·.1 ≠ path)) =
      if other = path then none else Text.find? other entries := by
  induction entries with
  | nil => simp [Text.find?]
  | cons entry rest ih =>
      by_cases hkey : entry.1 = path
      · rw [List.filter_cons_of_neg (by simpa using hkey), ih, Text.find?_cons]
        split
        next => rfl
        next hother => rw [if_neg (by rwa [hkey])]
      · rw [List.filter_cons_of_pos (by simpa using hkey), Text.find?_cons, Text.find?_cons, ih]
        by_cases hother : other = path
        · rw [if_pos hother, if_neg (by rw [hother]; exact Ne.symm hkey), if_pos hother]
        · rw [if_neg hother, if_neg hother]

namespace Settings

variable {settings : Settings} {entries : List (Text × Json)} {path other : Text}

theorem signatures_signing (settings : Settings) (entries : List (Text × Json)) (path : Text) :
    (settings.signing entries).signatures path =
      .ok ((Text.find? path entries).elim .derived Signatures.ofJson) := by
  have hlookup : lookup (settings.signing entries).customSignatures path =
      .ok (Text.find? path entries) := rfl
  unfold signatures
  rw [hlookup]
  cases Text.find? path entries <;> rfl

theorem signatures_setEntry (settings : Settings) (entries : List (Text × Json)) (path : Text)
    (value : Json) :
    (settings.signing (Json.setEntry path value entries)).signatures path =
      .ok (.ofJson value) := by
  rw [signatures_signing, Availability.find?_setEntry, if_pos rfl]
  rfl

theorem signatures_setEntry_of_ne (hne : other ≠ path) (value : Json) :
    (settings.signing (Json.setEntry path value entries)).signatures other =
      (settings.signing entries).signatures other := by
  rw [signatures_signing, signatures_signing, Availability.find?_setEntry, if_neg hne]

theorem signatures_filter (settings : Settings) (entries : List (Text × Json)) (path : Text) :
    (settings.signing (entries.filter (·.1 ≠ path))).signatures path = .ok .derived := by
  rw [signatures_signing, Text.find?_filter_ne, if_pos rfl]
  rfl

theorem signatures_filter_of_ne (hne : other ≠ path) :
    (settings.signing (entries.filter (·.1 ≠ path))).signatures other =
      (settings.signing entries).signatures other := by
  rw [signatures_signing, signatures_signing, Text.find?_filter_ne, if_neg hne]

/-- Settings that differ in the signatures for a path only. -/
structure AlikeBut (path : Text) (settings settings' : Settings) : Prop
    extends settings.ResolveAlike settings' where
  signatures : ∀ other, other ≠ path → settings'.signatures other = settings.signatures other
  keepsSupertype : ∀ supertype,
    settings'.keepsSupertype supertype = settings.keepsSupertype supertype
  isAutoCloseable : ∀ name, settings'.isAutoCloseable name = settings.isAutoCloseable name

theorem alikeBut_signing {entries' : List (Text × Json)}
    (hsignatures : ∀ other, other ≠ path → (settings.signing entries').signatures other =
      (settings.signing entries).signatures other) :
    AlikeBut path (settings.signing entries) (settings.signing entries') where
  className _ := rfl
  override? _ := rfl
  signatures := hsignatures
  keepsSupertype _ := rfl
  isAutoCloseable _ := rfl

end Settings

namespace Surface

/-! ## Members in parallel -/

section

variable {settings settings' : Settings} {interface interface' : ApiBindings.Interface}
  {member : Member} {base base' address : Address} {position position' : Nat}

theorem parallel_resolveParams (halike : settings.ResolveAlike settings')
    (hname : interface'.name = interface.name) (member : Member) (position : Nat)
    (params : List (Slot TypeNode)) :
    Parallel (Twins base base') (resolveParams settings interface member base position params)
      (resolveParams settings' interface' member base' position params)
      (Twins base base') := by
  induction params generalizing position with
  | nil => exact .pure fun _ _ h => h
  | cons param rest ih =>
      have howner : paramOwner interface' member param = paramOwner interface member param := by
        unfold paramOwner
        rw [hname]
      unfold resolveParams
      rw [howner]
      apply (Resolving.parallel_resolveType halike [position] param.type _).bind
      intro type
      exact (ih (position + 1)).bind fun _ => .pure fun _ _ h => h

theorem parallel_resolve_member (halike : settings.ResolveAlike settings')
    (hname : interface'.name = interface.name) (member : Member) (kind : OwnerKind) :
    Parallel (Twins base base')
      (resolve settings (memberOwner interface member kind) (0 :: base) member.type)
      (resolve settings' (memberOwner interface' member kind) (0 :: base') member.type)
      (Twins base base') := by
  have howner : memberOwner interface' member kind = memberOwner interface member kind := by
    unfold memberOwner
    rw [hname]
  rw [howner]
  exact Resolving.parallel_resolve halike [0] member.type _

theorem parallel_declareMethod (halike : settings.ResolveAlike settings')
    (hname : interface'.name = interface.name)
    (hsignatures : settings'.signatures member.path = settings.signatures member.path) :
    Parallel (Twins base base') (declareMethod settings interface base member)
      (declareMethod settings' interface' base' member) (Twins base base') := by
  unfold declareMethod
  rw [hsignatures]
  apply Parallel.ofExcept_bind
  intro signatures _
  split
  next => exact .pure fun _ _ h => h
  next =>
    apply (parallel_resolve_member halike hname member .method).bind
    intro returnType
    apply (parallel_resolveParams halike hname member 1 member.params).bind
    intro params
    split
    next => exact .pure fun _ _ h => h
    next => exact .throw
    next => exact .ofExcept

theorem parallel_declareMember (halike : settings.ResolveAlike settings')
    (hname : interface'.name = interface.name)
    (hsignatures : member.kind = .event ∨
      settings'.signatures member.path = settings.signatures member.path) :
    Parallel (Twins base base') (declareMember settings interface base member)
      (declareMember settings' interface' base' member) (Twins base base') := by
  unfold declareMember
  split
  next =>
    apply (parallel_resolve_member halike hname member .event).bind
    intro type
    exact .ofExcept_bind fun _ _ => .pure fun _ _ h => h
  next hkind =>
    apply (parallel_declareMethod halike hname (hsignatures.resolve_left hkind)).bind
    intro methods
    exact .pure fun _ _ h => h

/-! ## Abreast -/

/-- Two runs know the same types, and neither remembers anything at the addresses from a
position of its own on. -/
structure Abreast (address : Address) (position position' : Nat)
    (known known' : Knowledge) : Prop where
  catalogue : known'.catalogue = known.catalogue
  clear : ClearFrom address position known
  clear' : ClearFrom address position' known'

theorem Abreast.twins {known known' : Knowledge}
    (habreast : Abreast address position position' known known') :
    Twins (position :: address) (position' :: address) known known' :=
  .of_clear habreast.catalogue habreast.clear.here habreast.clear'.here

/-- Steps that only add at their own positions leave the runs abreast behind these. -/
theorem parallel_abreast {α : Type} {step step' : Resolving α}
    (hstep : Parallel (Twins (position :: address) (position' :: address)) step step'
      (Twins (position :: address) (position' :: address)))
    (hclear : ∀ known, ClearFrom address (position + 1) known →
      ClearFrom address (position + 1) (step.outcome known).2)
    (hclear' : ∀ known, ClearFrom address (position' + 1) known →
      ClearFrom address (position' + 1) (step'.outcome known).2) :
    Parallel (Abreast address position position') step step'
      (Abreast address (position + 1) (position' + 1)) := by
  apply (hstep.frame _ _ hclear hclear').imp
  · intro known known' habreast
    exact ⟨habreast.twins, habreast.clear.succ, habreast.clear'.succ⟩
  · intro known known' h
    exact ⟨h.1.catalogue, h.2.1, h.2.2⟩

theorem parallel_declareMember_abreast (halike : settings.ResolveAlike settings')
    (hname : interface'.name = interface.name)
    (hsignatures : member.kind = .event ∨
      settings'.signatures member.path = settings.signatures member.path) :
    Parallel (Abreast address position position')
      (declareMember settings interface (position :: address) member)
      (declareMember settings' interface' (position' :: address) member)
      (Abreast address (position + 1) (position' + 1)) :=
  parallel_abreast (parallel_declareMember halike hname hsignatures)
    (fun _ => declareMember_clearFrom) fun _ => declareMember_clearFrom

end

/-! ## Without the methods of a path -/

section

variable {settings settings' : Settings} {path : Text} {interface : ApiBindings.Interface}
  {address : Address} {position position' : Nat}

theorem supertypes_alike (halike : Settings.AlikeBut path settings settings')
    (interface : ApiBindings.Interface) :
    supertypes settings' interface = supertypes settings interface := by
  unfold supertypes
  rw [halike.keepsSupertype, halike.isAutoCloseable]

theorem declareMember_suppressed {member : Member} (hkind : member.kind ≠ .event)
    (hsuppressed : settings.signatures member.path = .ok .suppressed) :
    declareMember settings interface address member = pure ([], []) := by
  rw [declareMember_eq hkind]
  unfold declareMethod
  rw [hsuppressed]
  rfl

theorem parallel_declareMembers_without (halike : Settings.AlikeBut path settings settings')
    (hsuppressed : settings.signatures path = .ok .suppressed) {members : List Member} :
    Parallel (Abreast address position position')
      (declareMembers settings interface address position members)
      (declareMembers settings' (interface.without path) address position'
        (members.filter fun member => decide (member.kind = .event ∨ member.path ≠ path)))
      fun known known' => known'.catalogue = known.catalogue := by
  induction members generalizing position position' with
  | nil => exact .pure fun _ _ h => h.catalogue
  | cons member rest ih =>
      rw [declareMembers_cons]
      by_cases hkept : member.kind = .event ∨ member.path ≠ path
      · rw [List.filter_cons_of_pos (by simpa using hkept), declareMembers_cons]
        have hmember : Parallel (Abreast address position position')
            (declareMember settings interface (position :: address) member)
            (declareMember settings' (interface.without path) (position' :: address) member)
            (Abreast address (position + 1) (position' + 1)) :=
          parallel_declareMember_abreast halike.toResolveAlike rfl
            (hkept.imp id (halike.signatures _))
        apply hmember.bind
        intro own
        exact ih.bind fun _ => .pure fun _ _ h => h
      · -- Only the first run has a position for this member, and does nothing there.
        rw [List.filter_cons_of_neg (by simpa using hkept)]
        have hmember : member.kind ≠ .event ∧ member.path = path := by
          simpa using hkept
        rw [declareMember_suppressed hmember.1 (by rw [hmember.2, hsuppressed]), pure_bind]
        simp only [List.nil_append, Prod.mk.eta, bind_pure]
        apply ih.imp
        · intro known known' habreast
          exact ⟨habreast.catalogue, habreast.clear.succ, habreast.clear'⟩
        · exact fun _ _ h => h

theorem parallel_declareInterface_without (halike : Settings.AlikeBut path settings settings')
    (hsuppressed : settings.signatures path = .ok .suppressed) :
    Parallel (Abreast [] position position)
      (declareInterface settings [position] interface)
      (declareInterface settings' [position] (interface.without path))
      (Abreast [] (position + 1) (position + 1)) := by
  have hstep : Parallel (Abreast [] position position)
      (declareInterface settings [position] interface)
      (declareInterface settings' [position] (interface.without path))
      fun known known' => known'.catalogue = known.catalogue := by
    have hsupertypes : supertypes settings' (interface.without path) =
        supertypes settings interface := supertypes_alike halike interface
    unfold declareInterface
    rw [hsupertypes]
    apply Parallel.ofExcept_bind
    intro supertypes _
    have hmembers : Parallel (Abreast [] position position)
        (declareMembers settings interface [position] 0 interface.members)
        (declareMembers settings' (interface.without path) [position] 0
          (interface.without path).members)
        fun known known' => known'.catalogue = known.catalogue := by
      apply (parallel_declareMembers_without halike hsuppressed).imp _ fun _ _ h => h
      intro known known' habreast
      exact ⟨habreast.catalogue, .of_clear habreast.clear.here, .of_clear habreast.clear'.here⟩
    apply hmembers.bind
    intro members
    apply Parallel.get_bind
    intro known known' hcatalogue
    rw [hcatalogue]
    exact .ofExcept_bind fun _ _ => .pure fun _ _ h => h
  apply (hstep.frame (ClearFrom [] (position + 1)) (ClearFrom [] (position + 1))
    (fun _ => declareInterface_clearFrom) fun _ => declareInterface_clearFrom).imp
  · intro known known' habreast
    exact ⟨habreast, habreast.clear.succ, habreast.clear'.succ⟩
  · intro known known' h
    exact ⟨h.1, h.2.1, h.2.2⟩

theorem parallel_declareInterfaces_without (halike : Settings.AlikeBut path settings settings')
    (hsuppressed : settings.signatures path = .ok .suppressed)
    {interfaces : List ApiBindings.Interface} :
    Parallel (Abreast [] position position)
      (declareInterfaces settings position interfaces)
      (declareInterfaces settings' position (interfaces.map (·.without path)))
      fun known known' => known'.catalogue = known.catalogue := by
  induction interfaces generalizing position with
  | nil => exact .pure fun _ _ h => h.catalogue
  | cons interface rest ih =>
      rw [List.map_cons, declareInterfaces, declareInterfaces]
      apply (parallel_declareInterface_without halike hsuppressed).bind
      intro first
      exact ih.bind fun _ => .pure fun _ _ h => h

theorem abreast_empty : Abreast [] 0 0 Knowledge.empty Knowledge.empty :=
  ⟨rfl, clearFrom_empty, clearFrom_empty⟩

theorem declare_without (halike : Settings.AlikeBut path settings settings')
    (hsuppressed : settings.signatures path = .ok .suppressed)
    (interfaces : List ApiBindings.Interface) :
    declare settings interfaces = declare settings' (interfaces.map (·.without path)) := by
  have hrun : Parallel (Abreast [] 0 0) (declaring settings interfaces)
      (declaring settings' (interfaces.map (·.without path)))
      fun known known' => known'.catalogue = known.catalogue := by
    unfold declaring
    apply (parallel_declareInterfaces_without halike hsuppressed).bind
    intro declared
    apply Parallel.get_bind
    intro known known' hcatalogue
    rw [hcatalogue]
    exact .ofExcept_bind fun _ _ => .pure fun _ _ h => h
  exact (hrun _ _ abreast_empty).result

end

/-! ## With signatures for a path -/

section

variable {info : MemberInfo} {params : List ResolvedParam} {signatures : List Json}

theorem name_of_mem_blocksFor {returnType : Json} {choices : List (Option (Nat × TypeRef))}
    {blocks : List (List Overload)}
    (hblocks : blocksFor info returnType params choices = .ok blocks) :
    ∀ overload ∈ blocks.flatten, overload.name = info.name := by
  induction choices generalizing blocks with
  | nil =>
      obtain rfl : [] = blocks := Except.ok.inj hblocks
      simp
  | cons choice rest ih =>
      unfold blocksFor at hblocks
      rcases exists_of_bind_ok hblocks with ⟨own, hown, hrest⟩
      rcases exists_of_bind_ok hrest with ⟨others, hothers, hall⟩
      obtain rfl : overloadBlock info returnType own :: others = blocks := Except.ok.inj hall
      intro overload hmem
      rw [List.flatten_cons, List.mem_append] at hmem
      rcases hmem with hmine | hother
      · rw [overloadBlock, List.mem_append, mem_defaultOverloads, List.mem_singleton] at hmine
        rcases hmine with ⟨_, _, _, -, -, rfl⟩ | rfl
        · rfl
        · rfl
      · exact ih hothers overload hother

theorem namedFor_overloads {member : Member} {returnType : TypeRef} {derived : List Overload}
    (hderived : overloads (.of member) returnType params = .ok derived) :
    NamedFor member derived := by
  rcases exists_of_bind_ok hderived with ⟨blocks, hblocks, hall⟩
  obtain rfl : blocks.flatten = derived := Except.ok.inj hall
  exact name_of_mem_blocksFor hblocks

theorem name_of_mem_writtenOverloads :
    ∀ overload ∈ writtenOverloads info params signatures, overload.name = info.name := by
  induction signatures with
  | nil => exact fun _ hmem => nomatch hmem
  | cons signature rest ih =>
      cases rest with
      | nil => exact List.forall_mem_singleton.mpr rfl
      | cons second rest => exact List.forall_mem_cons.mpr ⟨rfl, ih⟩

theorem signature_writtenOverloads :
    (writtenOverloads info params signatures).map (·.signature) = signatures := by
  induction signatures with
  | nil => rfl
  | cons signature rest ih =>
      cases rest with
      | nil => rfl
      | cons second rest => exact congrArg (List.cons signature) ih

end

section

variable {settings settings' : Settings} {path : Text} {signatures : List Json}
  {interface : ApiBindings.Interface} {member : Member} {address : Address}
  {position : Nat} {known known' after : Knowledge}

theorem gives_declareMethod_named :
    Gives (declareMethod settings interface address member) (NamedFor member) := by
  unfold declareMethod
  apply Gives.bind_any
  intro given
  split
  next => exact .pure fun _ hmem => nomatch hmem
  next =>
    apply Gives.bind_any
    intro returnType
    apply Gives.bind_any
    intro params
    split
    next => exact .pure name_of_mem_writtenOverloads
    next => exact .throw _
    next =>
      cases hderived : overloads (.of member) returnType params with
      | error failure => exact .throw _
      | ok derived => exact .pure (namedFor_overloads hderived)

theorem gives_declareMember_event (hkind : member.kind = .event) :
    Gives (declareMember settings interface address member) fun own => own.2 = [] := by
  unfold declareMember
  rw [hkind]
  exact .bind_any fun _ => .bind_any fun _ => .pure rfl

theorem gives_declareMember_named (hkind : member.kind ≠ .event) :
    Gives (declareMember settings interface address member) fun own =>
      own.1 = [] ∧ NamedFor member own.2 := by
  rw [declareMember_eq hkind]
  exact gives_declareMethod_named.bind fun _ hnamed => .pure ⟨rfl, hnamed⟩

/-- A method with signatures of its own is resolved as if it had none. -/
theorem declareMember_written (halike : Settings.AlikeBut path settings settings')
    (hderived : settings.signatures path = .ok .derived)
    (hwritten : settings'.signatures path = .ok (.written signatures))
    (hkind : member.kind ≠ .event) (hpath : member.path = path)
    {own : List Listener × List Overload}
    (habreast : Abreast address position position known known')
    (hrun : outcome (declareMember settings interface (position :: address) member) known =
      (.ok own, after)) :
    ∃ own' after',
      outcome (declareMember settings' interface (position :: address) member) known' =
        (.ok ([], own'), after') ∧
      NamedFor member own' ∧ own'.map (·.signature) = signatures ∧
      Abreast address (position + 1) (position + 1) after after' := by
  have hmethod := declareMethod_of_declareMember hkind hrun
  rw [← hpath] at hderived hwritten
  rcases declareMethod_ok hderived hmethod with
    ⟨returnType, middle, params, hreturn, hparams, -⟩
  have hreturns := parallel_resolve_member halike.toResolveAlike
    (rfl : interface.name = interface.name) member .method known known' habreast.twins
  rw [hreturn] at hreturns
  rcases hreturns.exists_ok with ⟨middle', hreturn', htwins⟩
  have hresolves := parallel_resolveParams halike.toResolveAlike
    (rfl : interface.name = interface.name) member 1 member.params middle middle' htwins
  rw [hparams] at hresolves
  rcases hresolves.exists_ok with ⟨after', hparams', htwins'⟩
  have hrun' : outcome (declareMember settings' interface (position :: address) member) known' =
      (.ok ([], writtenOverloads (.of member) params signatures), after') := by
    rw [declareMember_eq hkind]
    unfold declareMethod
    simp only [outcome_bind, outcome_ofExcept, hwritten, hreturn', hparams', outcome_pure]
  have hclear : ClearFrom address (position + 1)
      (outcome (declareMember settings interface (position :: address) member) known).2 :=
    declareMember_clearFrom habreast.clear.succ
  have hclear' : ClearFrom address (position + 1)
      (outcome (declareMember settings' interface (position :: address) member) known').2 :=
    declareMember_clearFrom habreast.clear'.succ
  rw [hrun] at hclear
  rw [hrun'] at hclear'
  exact ⟨_, after', hrun', name_of_mem_writtenOverloads, signature_writtenOverloads,
    htwins'.catalogue, hclear, hclear'⟩

/-- Each member is declared in the second run if it is in the first one, and differs only
if it is a method of the path. -/
theorem declareMember_but (halike : Settings.AlikeBut path settings settings')
    (hderived : settings.signatures path = .ok .derived)
    (hwritten : settings'.signatures path = .ok (.written signatures))
    {own : List Listener × List Overload}
    (habreast : Abreast address position position known known')
    (hrun : outcome (declareMember settings interface (position :: address) member) known =
      (.ok own, after)) :
    ∃ own' after',
      outcome (declareMember settings' interface (position :: address) member) known' =
        (.ok (own.1, own'), after') ∧
      Abreast address (position + 1) (position + 1) after after' ∧
      ∀ rest others others', MethodsBut path signatures rest others others' →
        MethodsBut path signatures (member :: rest) (own.2 ++ others) (own' ++ others') := by
  have hresult : (outcome (declareMember settings interface (position :: address) member)
      known).1 = .ok own := congrArg Prod.fst hrun
  by_cases hkept : member.kind = .event ∨ member.path ≠ path
  · have hmember := parallel_declareMember_abreast halike.toResolveAlike
      (rfl : interface.name = interface.name) (hkept.imp id (halike.signatures _))
      known known' habreast
    rw [hrun] at hmember
    rcases hmember.exists_ok with ⟨after', hrun', hafter⟩
    refine ⟨own.2, after', hrun', hafter, ?_⟩
    intro rest others others' hothers
    by_cases hkind : member.kind = .event
    · rw [(gives_declareMember_event hkind).result known own hresult]
      exact .event hkind hothers
    · have hnamed := ((gives_declareMember_named hkind).result known own hresult).2
      exact .same hkind (hkept.resolve_left hkind) hnamed hothers
  · have hthis : member.kind ≠ .event ∧ member.path = path := by
      simpa using hkept
    rcases (gives_declareMember_named hthis.1).result known own hresult with ⟨hnone, hnamed⟩
    rcases declareMember_written halike hderived hwritten hthis.1 hthis.2 habreast hrun with
      ⟨own', after', hrun', hnamed', hsignatures, hafter⟩
    rw [← hnone] at hrun'
    refine ⟨own', after', hrun', hafter, ?_⟩
    intro rest others others' hothers
    exact .written hthis.1 hthis.2 hnamed hnamed' hsignatures hothers

theorem declareMembers_written (halike : Settings.AlikeBut path settings settings')
    (hderived : settings.signatures path = .ok .derived)
    (hwritten : settings'.signatures path = .ok (.written signatures))
    {members : List Member} {own : List Listener × List Overload}
    (habreast : Abreast address position position known known')
    (hrun : outcome (declareMembers settings interface address position members) known =
      (.ok own, after)) :
    ∃ methods' after',
      outcome (declareMembers settings' interface address position members) known' =
        (.ok (own.1, methods'), after') ∧
      MethodsBut path signatures members own.2 methods' ∧
      after'.catalogue = after.catalogue := by
  induction members generalizing position known known' own with
  | nil =>
      obtain ⟨rfl, rfl⟩ : ([], []) = own ∧ known = after := by
        simpa [declareMembers] using hrun
      exact ⟨[], known', rfl, .nil, habreast.catalogue⟩
  | cons member rest ih =>
      rcases declareMembers_cons_ok hrun with ⟨mine, middle, others, hmine, hothers, rfl⟩
      rcases declareMember_but halike hderived hwritten habreast hmine with
        ⟨mine', middle', hmine', hmiddle, hbut⟩
      rcases ih hmiddle hothers with ⟨others', after', hothers', hmethods, hcatalogue⟩
      have hrun' : outcome
          (declareMembers settings' interface address position (member :: rest)) known' =
            (.ok (mine.1 ++ others.1, mine' ++ others'), after') := by
        rw [declareMembers_cons]
        simp only [outcome_bind, hmine', hothers', outcome_pure]
      exact ⟨_, after', hrun', hbut rest others.2 others' hmethods, hcatalogue⟩

theorem declareInterface_written (halike : Settings.AlikeBut path settings settings')
    (hderived : settings.signatures path = .ok .derived)
    (hwritten : settings'.signatures path = .ok (.written signatures)) {declared : Interface}
    (habreast : Abreast [] position position known known')
    (hrun : outcome (declareInterface settings [position] interface) known =
      (.ok declared, after)) :
    ∃ declared' after',
      outcome (declareInterface settings' [position] interface) known' =
        (.ok declared', after') ∧
      declared.SameBut path signatures interface declared' ∧
      Abreast [] (position + 1) (position + 1) after after' := by
  rcases declareInterface_ok hrun with ⟨hname, hcomment, hsupertypes, hmembers, hnested⟩
  have hmine : Abreast [position] 0 0 known known' :=
    ⟨habreast.catalogue, .of_clear habreast.clear.here, .of_clear habreast.clear'.here⟩
  rcases declareMembers_written halike hderived hwritten hmine hmembers with
    ⟨methods', after', hmembers', hmethods, hcatalogue⟩
  rw [← supertypes_alike halike] at hsupertypes
  rw [← hcatalogue] at hnested
  have hrun' := declareInterface_run hsupertypes hmembers' hnested
  have hclear : ClearFrom [] (position + 1)
      (outcome (declareInterface settings [position] interface) known).2 :=
    declareInterface_clearFrom habreast.clear.succ
  have hclear' : ClearFrom [] (position + 1)
      (outcome (declareInterface settings' [position] interface) known').2 :=
    declareInterface_clearFrom habreast.clear'.succ
  rw [hrun] at hclear
  rw [hrun'] at hclear'
  exact ⟨_, after', hrun', ⟨hname.symm, hcomment.symm, rfl, rfl, rfl, hmethods⟩,
    hcatalogue, hclear, hclear'⟩

theorem declareInterfaces_written (halike : Settings.AlikeBut path settings settings')
    (hderived : settings.signatures path = .ok .derived)
    (hwritten : settings'.signatures path = .ok (.written signatures))
    {interfaces : List ApiBindings.Interface} {declared : List Interface}
    (habreast : Abreast [] position position known known')
    (hrun : outcome (declareInterfaces settings position interfaces) known =
      (.ok declared, after)) :
    ∃ declared' after',
      outcome (declareInterfaces settings' position interfaces) known' =
        (.ok declared', after') ∧
      InterfacesBut path signatures interfaces declared declared' ∧
      after'.catalogue = after.catalogue := by
  induction interfaces generalizing position known known' declared with
  | nil =>
      obtain ⟨rfl, rfl⟩ : [] = declared ∧ known = after := by
        simpa [declareInterfaces] using hrun
      exact ⟨[], known', rfl, .nil, habreast.catalogue⟩
  | cons interface rest ih =>
      rcases declareInterfaces_cons_ok hrun with
        ⟨first, others, middle, rfl, hfirst, hothers⟩
      rcases declareInterface_written halike hderived hwritten habreast hfirst with
        ⟨first', middle', hfirst', hsame, hmiddle⟩
      rcases ih hmiddle hothers with ⟨others', after', hothers', hbut, hcatalogue⟩
      have hrun' : outcome (declareInterfaces settings' position (interface :: rest)) known' =
          (.ok (first' :: others'), after') := by
        rw [declareInterfaces]
        simp only [outcome_bind, hfirst', hothers', outcome_pure]
      exact ⟨_, after', hrun', .cons hsame hbut, hcatalogue⟩

theorem declare_written (halike : Settings.AlikeBut path settings settings')
    (hderived : settings.signatures path = .ok .derived)
    (hwritten : settings'.signatures path = .ok (.written signatures))
    {interfaces : List ApiBindings.Interface} {surface : Surface}
    (hdeclared : declare settings interfaces = .ok surface) :
    ∃ surface', declare settings' interfaces = .ok surface' ∧
      surface.SameBut path signatures interfaces surface' := by
  rcases declare_ok hdeclared with ⟨known, hinterfaces, hclasses, henums⟩
  rcases declareInterfaces_written halike hderived hwritten abreast_empty hinterfaces with
    ⟨declared', known', hinterfaces', hbut, hcatalogue⟩
  have hsurface := Except.ok.inj (hdeclared.symm.trans (declare_run hinterfaces hclasses))
  have hbanner : [] = surface.banner := congrArg (·.banner) hsurface.symm
  rw [← hcatalogue] at hclasses henums
  exact ⟨_, declare_run hinterfaces' hclasses, hbut, rfl, henums.symm, hbanner⟩

end

/-! ## What signatures do -/

/-- No signatures for a path leave out its methods, as if the description had none.  Some
signatures change nothing but the overloads of these methods, whatever the settings are
and whatever else is in the table. -/
theorem signatures_contained (settings : Settings) (entries : List (Text × Json))
    (path : Text) (interfaces : List ApiBindings.Interface) :
    declare (settings.signing (Json.setEntry path (.arr []) entries)) interfaces =
        declare (settings.signing entries) (interfaces.map (·.without path)) ∧
      ∀ first rest surface,
        declare (settings.signing (entries.filter (·.1 ≠ path))) interfaces = .ok surface →
        ∃ surface',
          declare (settings.signing (Json.setEntry path (.arr (first :: rest)) entries))
            interfaces = .ok surface' ∧
          surface.SameBut path (first :: rest) interfaces surface' := by
  constructor
  · have halike : Settings.AlikeBut path
        (settings.signing (Json.setEntry path (.arr []) entries)) (settings.signing entries) :=
      Settings.alikeBut_signing fun _ hne => (Settings.signatures_setEntry_of_ne hne _).symm
    exact declare_without halike (Settings.signatures_setEntry settings entries path _) interfaces
  · intro first rest surface hdeclared
    have halike : Settings.AlikeBut path (settings.signing (entries.filter (·.1 ≠ path)))
        (settings.signing (Json.setEntry path (.arr (first :: rest)) entries)) := by
      apply Settings.alikeBut_signing
      intro other hne
      rw [Settings.signatures_setEntry_of_ne hne, Settings.signatures_filter_of_ne hne]
    exact declare_written halike (Settings.signatures_filter settings entries path)
      (Settings.signatures_setEntry settings entries path _) hdeclared

/-- A page with a method for its title. -/
def titledPage : ApiBindings.Interface where
  name := "Page"
  path := "Page"
  supertype := .null
  comment := .str ""
  members := [{
    kind := .method
    name := "title"
    path := "Page.title"
    type := some (.primitive "string" "Page.title")
    params := []
    comment := .str ""
    returnComment := .null
    required := true }]

theorem signatures_contained_titledPage :
    ∃ surface surface',
      declare (Settings.defaults.signing []) [titledPage] = .ok surface ∧
      declare (Settings.defaults.signing [("Page.title", .arr [.str "String title();"])])
        [titledPage] = .ok surface' ∧
      surface.SameBut "Page.title" [.str "String title();"] [titledPage] surface' := by
  have hdeclared : ∃ surface,
      declare (Settings.defaults.signing []) [titledPage] = .ok surface := ⟨_, rfl⟩
  rcases hdeclared with ⟨surface, hdeclared⟩
  rcases (signatures_contained .defaults [] "Page.title" [titledPage]).2
    (.str "String title();") [] surface hdeclared with ⟨surface', hdeclared', hsame⟩
  exact ⟨surface, surface', hdeclared, hdeclared', hsame⟩

end Surface
end ApiBindings
