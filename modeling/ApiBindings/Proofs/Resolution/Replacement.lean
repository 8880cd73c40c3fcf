import ApiBindings.Proofs.Resolution.Nullable
import ApiBindings.Proofs.Schema.Reordering
/-!
# Replaced types

Where the settings replace a type, only its canonical expression is looked at.  If that is
the expected one, the type is the one of the settings, else the run ends; nothing below the
type is derived either way.  So the order of the members of unions does not matter there.
-/

namespace ApiBindings

/-- The type that is put in place of another one. -/
def Override.ref (o : Override) : TypeRef :=
  if o.kind.isText "enum" then .enum o.target else .globalClass o.target

namespace Resolving

variable {settings : Settings} {owner : Owner} {o : Override} {known : Knowledge}
  {address : Address} {node other : TypeNode}

/-- A type of the expected expression is replaced. -/
theorem outcome_resolveType_of_match (hoverride : settings.override? owner.path = .ok (some o))
    (hfresh : known.resolved.lookup address = none) (hsource : o.source = .str node.expression) :
    outcome (resolveType settings owner address node) known =
      (.ok o.ref, { known with resolved := (address, o.ref) :: known.resolved }) := by
  have hreplaced : replacement? settings owner.path node.expression = .ok (some o.ref) := by
    have htext : o.source.isText node.expression = true := Json.isText_iff.mpr hsource
    simp [replacement?, hoverride, htext, Override.ref, bind, Except.bind, pure, Except.pure]
  rw [outcome_resolveType_of_free hfresh, hreplaced]

/-- A type of any other expression is refused. -/
theorem outcome_resolveType_of_mismatch
    (hoverride : settings.override? owner.path = .ok (some o))
    (hfresh : known.resolved.lookup address = none) (hsource : o.source ≠ .str node.expression) :
    outcome (resolveType settings owner address node) known =
      (.error ((Cause.overrideMismatch o.source node.expression).atPath owner.path), known) := by
  have hreplaced : replacement? settings owner.path node.expression =
      .error ((Cause.overrideMismatch o.source node.expression).atPath owner.path) := by
    have htext : ¬o.source.isText node.expression = true := fun h => hsource (Json.isText_iff.mp h)
    simp [replacement?, hoverride, htext, bind, Except.bind, throw, throwThe,
      MonadExceptOf.throw]
  rw [outcome_resolveType_of_free hfresh, hreplaced]

/-- A type that is to be replaced is resolved to the given reference if its expression is the
expected one, and is a mismatch otherwise. -/
structure Replaces (o : Override) (path expression : Text) (known : Knowledge)
    (run : Except Failure TypeRef × Knowledge) : Prop where
  found : o.source = .str expression → run.1 = .ok o.ref
  mismatch : o.source ≠ .str expression →
    run.1 = .error ((Cause.overrideMismatch o.source expression).atPath path)
  untouched : run.2.catalogue = known.catalogue

theorem resolveType_replaces (hoverride : settings.override? owner.path = .ok (some o))
    (hfresh : known.resolved.lookup address = none) :
    Replaces o owner.path node.expression known
      (outcome (resolveType settings owner address node) known) := by
  by_cases hsource : o.source = .str node.expression
  · rw [outcome_resolveType_of_match hoverride hfresh hsource]
    exact ⟨fun _ => rfl, fun hne => absurd hsource hne, rfl⟩
  · rw [outcome_resolveType_of_mismatch hoverride hfresh hsource]
    exact ⟨fun heq => absurd heq hsource, fun _ => rfl, rfl⟩

/-- Types that differ only in the order of the members of unions have the same canonical
expression.  So where the settings replace them both are resolved to the given reference, or
both are the same mismatch, and no types are registered, wherever each of them stands and
whatever lies below it. -/
theorem resolve_reordered (hreordered : node.Reordered other) :
    node.expression = other.expression ∧
    ∀ (settings : Settings) (owner : Owner) (o : Override) (known : Knowledge)
      (address address' : Address),
      settings.override? owner.path = .ok (some o) →
      known.resolved.lookup address = none → known.resolved.lookup address' = none →
      let first := outcome (resolve settings owner address (some node)) known
      let second := outcome (resolve settings owner address' (some other)) known
      first.1 = second.1 ∧ Replaces o owner.path node.expression known first ∧
        Replaces o owner.path node.expression known second := by
  have hsame : node.expression = other.expression := TypeNode.expression_orderFree node other hreordered
  refine ⟨hsame, ?_⟩
  intro settings owner o known address address' hoverride hfresh hfresh' first second
  have hfirst : Replaces o owner.path node.expression known first :=
    resolveType_replaces hoverride hfresh
  have hsecond : Replaces o owner.path node.expression known second := by
    rw [hsame]
    exact resolveType_replaces hoverride hfresh'
  refine ⟨?_, hfirst, hsecond⟩
  by_cases hsource : o.source = .str node.expression
  · rw [hfirst.found hsource, hsecond.found hsource]
  · rw [hfirst.mismatch hsource, hsecond.mismatch hsource]

/-! ## Modes of opening a page -/

def modeOwner : Owner := ⟨"Page.open.mode", .param, "mode", "open", "Page"⟩

def modeType (name : Text) : TypeNode := .primitive name modeOwner.path

/-- A list of texts or numbers, an enum, or a record with a width. -/
def modes : TypeNode :=
  .union "" modeOwner.path
    [.array modeOwner.path (.union "" modeOwner.path [modeType "string", modeType "int"]),
     .union "Mode" modeOwner.path [modeType "light", modeType "dark"],
     .record modeOwner.path [⟨"width", "Page.open.mode.width", modeType "int", true, .str []⟩]]

/-- The same in another order. -/
def modesAgain : TypeNode :=
  .union "" modeOwner.path
    [.record modeOwner.path [⟨"width", "Page.open.mode.width", modeType "int", true, .str []⟩],
     .union "Mode" modeOwner.path [modeType "dark", modeType "light"],
     .array modeOwner.path (.union "" modeOwner.path [modeType "int", modeType "string"])]

def modeOverride : Override where
  source := .str "Array<int|string>|Mode<dark|light>|Object"
  target := .str "OpenMode"
  kind := .str "class"

def modeSettings : Settings :=
  { Settings.defaults with overrides := some (.table [(modeOwner.path, modeOverride)]) }

theorem reordered_modes : modes.Reordered modesAgain := by
  have hsame : ∀ name, (modeType name).Reordered (modeType name) :=
    fun name => .primitive name modeOwner.path
  have hswapped : ∀ name a b, (TypeNode.union name modeOwner.path [modeType a, modeType b]).Reordered
      (.union name modeOwner.path [modeType b, modeType a]) :=
    fun _ a b => .union (.swap _ _ _) (.cons (hsame b) (.cons (hsame a) .nil))
  refine .union (List.reverse_perm _).symm (.cons ?_ (.cons ?_ (.cons ?_ .nil)))
  · exact .record (.cons (.mk _ _ _ _ (hsame "int")) .nil)
  · exact hswapped "Mode" "light" "dark"
  · exact .array (hswapped "" "string" "int")

theorem resolve_reordered_modes :
    modes.Reordered modesAgain ∧ modes.expression = modesAgain.expression ∧
      (outcome (resolve modeSettings modeOwner [0] (some modes)) .empty).1 =
        .ok (.globalClass (.str "OpenMode")) ∧
      (outcome (resolve modeSettings modeOwner [1] (some modesAgain)) .empty).1 =
        .ok (.globalClass (.str "OpenMode")) := by
  obtain ⟨hsame, hruns⟩ := resolve_reordered reordered_modes
  obtain ⟨-, hfirst, hsecond⟩ :=
    hruns modeSettings modeOwner modeOverride .empty [0] [1] rfl rfl rfl
  have hexpression : modes.expression = "Array<int|string>|Mode<dark|light>|Object" := by
    simp +decide [modes, modeType, TypeNode.expression, TypeNode.expressions,
      TypeNode.unionExpression, List.mergeSort, List.MergeSort.Internal.splitInTwo]
  have hsource : modeOverride.source = .str modes.expression := by
    rw [hexpression]
    rfl
  exact ⟨reordered_modes, hsame, hfirst.found hsource, hsecond.found hsource⟩

end Resolving
end ApiBindings
