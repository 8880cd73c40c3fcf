import ApiBindings.Nominal.Basic
/-!
# The surface of an API

What the generated files declare: interfaces with listeners and overloads,
classes with fields, constructor and setters, and enums.  Descriptions and the
names of types are carried along as they were given.
-/

namespace ApiBindings
namespace Surface

/-- A parameter of a declaration. -/
structure Param where
  name : Text
  type : Json
  comment : Json
deriving Repr

/-- One public signature of a method. -/
structure Overload where
  name : Text
  returnType : Json
  params : List Param
  /-- The arguments of the overload that this one calls, if it calls one. -/
  delegateArgs : Option (List Text)
  /-- The whole declaration, if it is written by hand; else null. -/
  signature : Json
  comment : Json
  /-- What is said of the result; null if nothing is. -/
  returnComment : Json
deriving Repr

/-- The pair of methods that add and remove a handler of an event. -/
structure Listener where
  event : Text
  handlerType : Text
  comment : Json
deriving Repr

/-- A method of a class that sets a field and returns the object. -/
structure Builder where
  method : Text
  field : Text
  params : List Param
  /-- The name of the class that is made from the parameters and then set; null
  if none is. -/
  nestedClass : Json
  /-- Whether the value is stored as an optional one. -/
  wrapsOptional : Bool
deriving Repr

/-- The declaration of a class. -/
structure Class where
  name : Json
  fields : List Param
  constructorParams : List Param
  builders : List Builder
  isReturnType : Bool
  isPublic : Bool
deriving Repr

/-- The declaration of an interface. -/
structure Interface where
  name : Text
  comment : Json
  supertypes : List Json
  listeners : List Listener
  methods : List Overload
  nestedClasses : List Class
deriving Repr

end Surface

/-- All declarations of a run. -/
structure Surface where
  interfaces : List Surface.Interface
  classes : List Surface.Class
  enums : List EnumType
  /-- The comment at the top of every file, if there is one. -/
  banner : Text
deriving Repr

end ApiBindings
