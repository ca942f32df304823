import Etch.Java.IdName
import Etch.Library.Loop

/-!
# Services of the Etch compiler

What a service declares, how a name of it is resolved, and how it is checked.
A check may go on for ever: it is run with a number of rounds that its loop
and its recursion may take.
-/

namespace Etch.Compiler

open Etch.Java Etch.Library

inductive Thrown where
  | parseException (message : JavaString)
  | nullPointerException
  | classCastException
deriving DecidableEq

/-- A name with the line of its token. -/
structure Name where
  name : JavaString
  beginLine : Nat

/-- The type of a parameter: a keyword of the language, or a name. -/
structure TypeRef where
  image : JavaString
  beginLine : Nat
  isBuiltin : Bool

structure Parameter where
  name : JavaString
  type : TypeRef

/-- The declarations that may extend another one. -/
inductive Kind where
  | struct
  | except
deriving DecidableEq

/-- The declaration of a struct or of an exception. -/
structure ParamList where
  name : JavaString
  parameters : List Parameter
  xtnds : Option Name

mutual

/-- A service with the names of its module and of itself, and with what it
declares, in the order of the declarations. -/
inductive Service where
  | mk (moduleName name : JavaString) (nameList : List Named)

inductive Named where
  | paramList (kind : Kind) (declaration : ParamList)
  | enumx (name : JavaString)
  | external (name : JavaString)
  | builtin (name bindingName : JavaString)
  /-- a constant or a message, with what its own check finds wrong with it -/
  | other (name : JavaString) (fqname : Option JavaString)
      (fault : Option JavaString)
  | mixin (name : JavaString) (service : Service)

end

def Service.nameList : Service → List Named
  | mk _ _ nameList => nameList

def Service.fqname : Service → JavaString
  | mk moduleName name _ => moduleName ++ text "." ++ name

namespace Named

def name : Named → JavaString
  | paramList _ declaration => declaration.name
  | enumx name => name
  | external name => name
  | builtin name _ => name
  | other name _ _ => name
  | mixin name _ => name

/-- `fqname()`, of a thing in a service with that name. -/
def fqname (service : JavaString) : Named → Option JavaString
  | paramList _ declaration => some (service ++ text "." ++ declaration.name)
  | enumx name => some (service ++ text "." ++ name)
  | external name => some (service ++ text "." ++ name)
  | builtin _ bindingName => some bindingName
  | other _ fqname _ => fqname
  | mixin _ mixed => some mixed.fqname

/-- `n instanceof Struct`, or `Except` -/
def isParamList (kind : Kind) : Named → Bool
  | paramList declared _ => declared == kind
  | _ => false

theorem isParamList_iff {kind : Kind} {named : Named} :
    named.isParamList kind = true ↔
      ∃ declaration, named = .paramList kind declaration := by
  cases named <;> simp [isParamList]

def isType : Named → Bool
  | paramList .struct _ => true
  | enumx _ => true
  | external _ => true
  | builtin _ _ => true
  | _ => false

end Named

/-! ## Names -/

/-- A named thing with the service that declares it, and with the mixins on
the way there. -/
structure Entry where
  path : List JavaString
  service : Service
  named : Named

def Entry.fqname (entry : Entry) : Option JavaString :=
  entry.named.fqname entry.service.fqname

/-- The text behind the last dot, if there is one. -/
def getSimpleName (name : JavaString) : JavaString :=
  (name.reverse.takeWhile fun unit => unit ≠ 46).reverse

def isQualifiedName (name : JavaString) : Bool :=
  name.contains 46

namespace Service

/-- `nameList.get(name)` -/
def named (service : Service) (name : JavaString) : Option Entry :=
  (service.nameList.find? fun named => named.name == name).map
    (⟨[], service, ·⟩)

/-- What a service has itself under a name, simple or qualified. -/
def own (service : Service) (name : JavaString) : List Entry :=
  (service.named name).toList ++
    if isQualifiedName name then
      (service.named (getSimpleName name)).toList.filter fun entry =>
        entry.fqname == some name
    else
      []

/-- Whether one of the entries has the fully qualified name of another; an
entry without one cannot be asked. -/
def hasFqname (list : List Entry) (entry : Entry) : Except Thrown Bool :=
  list.foldlM
    (fun found other =>
      match other.fqname with
      | none => .error .nullPointerException
      | some fqname => .ok (found || entry.fqname == some fqname))
    false

mutual

/-- `get(name)` -/
def get : Service → JavaString → Except Thrown (Option Entry)
  | mk moduleName name nameList, wanted => do
      let list ← mixedIn nameList wanted
        ((mk moduleName name nameList).own wanted)
      match list with
      | [entry] => return some entry
      | _ => return none

/-- The mixins among the declarations add to the list what they have. -/
def mixedIn : List Named → JavaString → List Entry →
    Except Thrown (List Entry)
  | [], _, list => return list
  | .mixin name service :: rest, wanted, list => do
      match ← service.get wanted with
      | none => mixedIn rest wanted list
      | some entry =>
          if ← hasFqname list entry then
            mixedIn rest wanted list
          else
            mixedIn rest wanted
              (list ++ [{ entry with path := name :: entry.path }])
  | _ :: rest, wanted, list => mixedIn rest wanted list

end

end Service

/-! ## Types -/

/-- `check(i)` of a type, which looks its name up in the service. -/
def TypeRef.check (type : TypeRef) (service : Service) :
    Except Thrown Unit :=
  if type.isBuiltin then
    return ()
  else do
    match ← service.get type.image with
    | none =>
        throw (.parseException (text "undefined or ambiguous type " ++
          type.image ++ text " at line " ++ text (toString type.beginLine)))
    | some entry =>
        if entry.named.isType then
          return ()
        else
          throw (.parseException (type.image ++
            text " not a type at line " ++ text (toString type.beginLine)))

/-! ## Structs and exceptions -/

/-- A struct, or an exception, that a service declares. -/
structure Node where
  path : List JavaString
  service : Service
  declaration : ParamList

namespace Node

/-- `parameters` of the declaration alone. -/
def getOwnParameter (node : Node) (name : JavaString) : Option Parameter :=
  node.declaration.parameters.find? fun parameter => parameter.name == name

/-- The service that is checked is the one that no mixin leads to: the same
declaration has the same name there. -/
def same (node other : Node) : Bool :=
  node.path == other.path && node.declaration.name == other.declaration.name

/-- `getExtends()`, with its cast. -/
def getExtends (kind : Kind) (node : Node) :
    Except Thrown (Option Node) := do
  match node.declaration.xtnds with
  | none => return none
  | some xtnds =>
      match ← node.service.get xtnds.name with
      | none => return none
      | some ⟨path, service, .paramList declared declaration⟩ =>
          if declared = kind then
            return some ⟨node.path ++ path, service, declaration⟩
          else
            throw .classCastException
      | some _ => throw .classCastException

/-- `getParameter(n)`, with the declaration that has the parameter. -/
def getParameter (kind : Kind) : Nat → Node → JavaString →
    Option (Except Thrown (Option (Parameter × Node)))
  | 0, _, _ => none
  | fuel + 1, node, name =>
      match node.getOwnParameter name with
      | some parameter => some (.ok (some (parameter, node)))
      | none =>
          if node.declaration.xtnds.isSome then
            match node.getExtends kind with
            | .error thrown => some (.error thrown)
            | .ok none => some (.error .nullPointerException)
            | .ok (some base) => getParameter kind fuel base name
          else
            some (.ok none)

end Node

/-- What the errors of a kind call it. -/
structure Wording where
  kind : Kind
  name : JavaString
  notA : JavaString

namespace Wording

/-- `struct .. extends .. ` and what is wrong with that. -/
def extendsText (wording : Wording) (declaration : ParamList)
    (xtnds : Name) (fault : JavaString) : Thrown :=
  .parseException (wording.name ++ text " " ++ declaration.name ++
    text " extends " ++ xtnds.name ++ text " " ++ fault ++
    text " at line " ++ text (toString xtnds.beginLine))

/-- One round of the loop that looks for the declaration itself among those
that it extends. -/
def round (wording : Wording) (this : Node) (xtnds : Name) :
    Option Node → Loop.Pass (Option Node) (Except Thrown Unit)
  | none => .leave (.ok ())
  | some node =>
      if node.declaration.xtnds.isSome then
        match node.getExtends wording.kind with
        | .error thrown => .leave (.error thrown)
        | .ok none => .again none
        | .ok (some base) =>
            if base.same this then
              .leave (.error (wording.extendsText this.declaration xtnds
                (text "creates loop")))
            else
              .again (some base)
      else
        .leave (.ok ())

/-- A parameter that the declaration which is extended, or one behind it, has
as well is an error. -/
def hides (wording : Wording) (fuel : Nat) (declaration : ParamList)
    (xtnds : Name) (base : Option Node) (parameter : Parameter) :
    ExceptT Thrown Option Unit :=
  match base with
  | none => throw .nullPointerException
  | some base => do
      match ← ExceptT.mk (base.getParameter wording.kind fuel
        parameter.name) with
      | none => return ()
      | some (hidden, owner) =>
          throw (wording.extendsText declaration xtnds
            (text "hides parameter " ++ hidden.name ++ text " from " ++
              owner.declaration.name))

/-- The part of `check()` that is about the declaration's `extends`. -/
def checkExtends (wording : Wording) (fuel : Nat) (this : Node)
    (xtnds : Name) : ExceptT Thrown Option Unit := do
  match ← liftM (this.service.get xtnds.name) with
  | none =>
      throw (wording.extendsText this.declaration xtnds
        (text "not defined"))
  | some entry =>
      if entry.named.isParamList wording.kind then do
        ExceptT.mk (Loop.run (wording.round this xtnds) fuel (some this))
        let base ← liftM (this.getExtends wording.kind)
        this.declaration.parameters.forM
          (wording.hides fuel this.declaration xtnds base)
      else
        throw (wording.extendsText this.declaration xtnds wording.notA)

/-- `check()` of a struct or an exception in a service. -/
def check (wording : Wording) (fuel : Nat) (service : Service)
    (declaration : ParamList) : ExceptT Thrown Option Unit := do
  declaration.parameters.forM fun parameter =>
    liftM (parameter.type.check service)
  match declaration.xtnds with
  | none => return ()
  | some xtnds =>
      wording.checkExtends fuel ⟨[], service, declaration⟩ xtnds

end Wording

def Struct.wording : Wording :=
  ⟨.struct, text "struct", text "not a struct"⟩

/-- `check()` of a struct -/
def Struct.check (fuel : Nat) (service : Service) (declaration : ParamList) :
    ExceptT Thrown Option Unit :=
  Struct.wording.check fuel service declaration

def Except.wording : Wording :=
  ⟨.except, text "exception", text "not an exception"⟩

/-- `check()` of an exception -/
def Except.check (fuel : Nat) (service : Service) (declaration : ParamList) :
    ExceptT Thrown Option Unit :=
  Except.wording.check fuel service declaration

/-! ## Services -/

def Named.check (fuel : Nat) (service : Service) :
    Named → ExceptT Thrown Option Unit
  | paramList .struct declaration => Struct.check fuel service declaration
  | paramList .except declaration => Except.check fuel service declaration
  | other _ _ (some fault) => throw (.parseException fault)
  | _ => return ()

def Service.check (fuel : Nat) (service : Service) :
    ExceptT Thrown Option Unit :=
  service.nameList.forM (Named.check fuel service)

end Etch.Compiler
