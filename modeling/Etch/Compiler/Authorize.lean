import Etch.Compiler.Constants
import Etch.Compiler.Resolution
import Etch.Library.Fueled

/-!
# The option `Authorize`

A message may name a method that decides whether it is let through, with
arguments: parameters of the message, fields of these, constants, enum items
and literals.  The check looks each of them up.  Here a service is declared
with all that the check reads; names are resolved as in any other service.
-/

namespace Etch.Compiler

open Etch.Java Etch.Library

/-! ## Declarations -/

/-- A type reference: its token, and the number of its array dimensions. -/
structure TypeUse where
  type : Token
  dim : ℕ
deriving DecidableEq

namespace TypeUse

def isBuiltin (use : TypeUse) : Bool :=
  use.type.kind ≠ .id && use.type.kind ≠ .qid

def isArray (use : TypeUse) : Bool :=
  use.dim > 0

def isBoolean (use : TypeUse) : Bool :=
  use.type.kind = .boolean && !use.isArray

def isIntegral (use : TypeUse) : Bool :=
  !use.isArray && use.type.kind ∈ [.byte, .short, .int, .long]

def isFloating (use : TypeUse) : Bool :=
  !use.isArray && use.type.kind ∈ [.float, .double]

def isString (use : TypeUse) : Bool :=
  !use.isArray && use.type.kind = .string

end TypeUse

structure TypedParameter where
  name : JavaString
  type : TypeUse
deriving DecidableEq

structure Message where
  name : JavaString
  type : TypeUse
  parameters : List TypedParameter

mutual

/-- A service with all that its declarations have. -/
inductive Interface where
  | mk (moduleName name : JavaString) (declarations : List Declaration)

inductive Declaration where
  | struct (name : JavaString) (parameters : List TypedParameter)
      (xtnds : Option Name)
  | except (name : JavaString) (parameters : List TypedParameter)
      (xtnds : Option Name)
  | enumx (name : JavaString) (items : List JavaString)
  | external (name : JavaString)
  | builtin (name bindingName : JavaString)
  | constant (name : JavaString) (type : TypeUse) (value : Token)
  | message (message : Message)
  | mixin (name : JavaString) (interface : Interface)

end

def Declaration.name : Declaration → JavaString
  | struct name _ _ => name
  | except name _ _ => name
  | enumx name _ => name
  | external name => name
  | builtin name _ => name
  | constant name _ _ => name
  | .message method => method.name
  | mixin name _ => name

/-- What the resolution of names uses of a type reference. -/
def TypeUse.erase (use : TypeUse) : TypeRef :=
  ⟨use.type.image, use.type.beginLine, use.isBuiltin⟩

def TypedParameter.erase (parameter : TypedParameter) : Parameter :=
  ⟨parameter.name, parameter.type.erase⟩

mutual

/-- What the resolution of names uses of a service. -/
def Interface.erase : Interface → Service
  | .mk moduleName name declarations =>
      .mk moduleName name
        (Declaration.eraseAll (moduleName ++ text "." ++ name) declarations)

def Declaration.eraseAll (fqname : JavaString) :
    List Declaration → List Named
  | [] => []
  | declaration :: rest =>
      declaration.erase fqname :: Declaration.eraseAll fqname rest

/-- A constant has no qualified name, and the name of a message begins with
that of its service. -/
def Declaration.erase (fqname : JavaString) : Declaration → Named
  | .struct name parameters xtnds =>
      .paramList .struct
        ⟨name, parameters.map TypedParameter.erase, xtnds⟩
  | .except name parameters xtnds =>
      .paramList .except
        ⟨name, parameters.map TypedParameter.erase, xtnds⟩
  | .enumx name _ => .enumx name
  | .external name => .external name
  | .builtin name bindingName => .builtin name bindingName
  | .constant name _ _ => .other name none none
  | .message method =>
      .other method.name (some (fqname ++ text "." ++ method.name)) none
  | .mixin name interface => .mixin name interface.erase

end

/-- A declaration with its service and the mixins on the way to it. -/
structure Place where
  path : List JavaString
  service : Service
  declaration : Declaration

/-- The same object has been found. -/
def Place.same (place other : Place) : Prop :=
  place.path = other.path ∧ place.declaration.name = other.declaration.name

instance (place other : Place) : Decidable (place.same other) :=
  inferInstanceAs (Decidable (_ ∧ _))

namespace Interface

def declarations : Interface → List Declaration
  | mk _ _ declarations => declarations

/-- The declaration of a name. -/
def declared (interface : Interface) (name : JavaString) :
    Option Declaration :=
  interface.declarations.find? fun declaration => declaration.name == name

/-- The service at the end of a path of mixins. -/
def follow (interface : Interface) : List JavaString → Option Interface
  | [] => some interface
  | name :: path =>
      match interface.declared name with
      | some (.mixin _ mixed) => mixed.follow path
      | _ => none

/-- `get(name)` -/
def get (interface : Interface) (name : JavaString) :
    Except Thrown (Option Place) := do
  match ← interface.erase.get name with
  | none => return none
  | some entry =>
      return do
        let owner ← interface.follow entry.path
        let declaration ← owner.declared entry.named.name
        return ⟨entry.path, entry.service, declaration⟩

end Interface

/-- `getNamed(i)` of a type, null for a keyword -/
def TypeUse.getNamed (use : TypeUse) (interface : Interface) :
    Except Thrown (Option Place) :=
  if use.isBuiltin then
    return none
  else
    interface.get use.type.image

/-! ## Parameters -/

/-- `getParameter(n)` of a message -/
def Message.getParameter (message : Message) (n : JavaString) :
    Option TypedParameter :=
  message.parameters.find? fun parameter => parameter.name == n

/-- `getParameter(n)` of a struct, which is looked for in what the struct
extends as well -/
def Interface.getParameter (interface : Interface) (fuel : ℕ)
    (path : List JavaString) (service : Service) (struct : ParamList)
    (n : JavaString) : ExceptT Thrown Option (Option TypedParameter) := do
  match ← ExceptT.mk
    (Node.getParameter .struct fuel ⟨path, service, struct⟩ n) with
  | none => return none
  | some (_, owner) =>
      return do
        let holder ← interface.follow owner.path
        match ← holder.declared owner.declaration.name with
        | .struct _ parameters _ =>
            parameters.find? fun parameter => parameter.name == n
        | _ => none

/-! ## The check -/

/-- `double` and what is done with it here -/
structure Doubles where
  Double : Type
  /-- `Double.parseDouble( image )`; a `NumberFormatException` is none -/
  parseDouble : JavaString → Option Double
  /-- `Float.MIN_VALUE <= |dvalue| && |dvalue| <= Float.MAX_VALUE` -/
  inFloatRange : Double → Bool

/-- `@Authorize( method, args )`, with its line. -/
structure Authorize where
  method : Token
  argList : List Token
  lineno : ℕ

namespace Authorize

section Check

variable (digits : RadixDigits) (doubles : Doubles)
  (interface : Interface) (fuel : ℕ) (msg : Message) (opt : Authorize)

/-- What is wrong with an argument, the first one being number 1. -/
def argumentFault (arg : Token) (argNo : ℕ) (fault : JavaString) : Thrown :=
  .parseException (text "Authorize method " ++ opt.method.image ++
    text " arg " ++ text (toString (argNo + 1)) ++ fault ++ text " (" ++
    arg.image ++ text ") at line " ++ text (toString opt.lineno))

def parameterFault (param : TypedParameter) (arg : Token) (argNo : ℕ)
    (fault : JavaString) : Thrown :=
  .parseException (text "Authorize method " ++ opt.method.image ++
    text " parameter " ++ text (toString (argNo + 1)) ++ text " (" ++
    param.name ++ text ") " ++ fault ++ text " at line " ++
    text (toString arg.beginLine))

def typeMismatch (param : TypedParameter) (arg : Token) (argNo : ℕ) :
    Thrown :=
  parameterFault opt param arg argNo (text "type mismatch")

/-- `pt == paramType`, where both may be null -/
def sameNamed : Option Place → Option Place → Bool
  | none, none => true
  | some place, some other => place.same other
  | _, _ => false

/-- Do the types match? -/
def matchTypes (type : TypeUse) (param : TypedParameter) (arg : Token)
    (argNo : ℕ) : Except Thrown PUnit := do
  let pt ← type.getNamed interface
  let paramType ← param.type.getNamed interface
  if sameNamed pt paramType then
    return ()
  else
    throw (typeMismatch opt param arg argNo)

def checkMsgParamOrServiceConst (param : TypedParameter) (arg : Token)
    (argNo : ℕ) : Except Thrown PUnit := do
  match msg.getParameter arg.image with
  | some p => matchTypes interface opt p.type param arg argNo
  | none =>
      match ← interface.get arg.image with
      | some ⟨_, _, .constant _ type _⟩ =>
          matchTypes interface opt type param arg argNo
      | some _ =>
          throw (argumentFault opt arg argNo
            (text " name not a parameter or constant"))
      | none => throw (argumentFault opt arg argNo (text " name unknown"))

/-- `getField( service, p, path )` -/
def getField (p : TypedParameter) :
    List JavaString → ExceptT Thrown Option (Option TypedParameter)
  | [] => return some p
  | name :: path => do
      match ← liftM (p.type.getNamed interface) with
      | some ⟨place, service, .struct struct parameters xtnds⟩ =>
          match ← interface.getParameter fuel place service
            ⟨struct, parameters.map TypedParameter.erase, xtnds⟩ name with
          | some field => getField field path
          | none => return none
      | _ => return none

/-- The tokens of `new StringTokenizer( image, "." )` -/
def tokens (image : JavaString) : List JavaString :=
  (image.splitOn (char '.')).filter (· ≠ [])

def checkEnumItem (arg : Token) (argNo : ℕ) (name : JavaString)
    (path : List JavaString) : Except Thrown PUnit := do
  match ← interface.get name with
  | none => throw (argumentFault opt arg argNo (text " name unknown"))
  | some ⟨_, _, .enumx _ items⟩ =>
      match path with
      | [item] =>
          if item ∈ items then
            return ()
          else
            throw (argumentFault opt arg argNo (text " name not an enum item"))
      -- a `QID` has two names at least, so that there are more here
      | _ => throw (argumentFault opt arg argNo (text " name not an enum item"))
  | some _ =>
      throw (argumentFault opt arg argNo
        (text " name not a parameter field or enum"))

def checkMsgParamFieldRefOrEnumItem (param : TypedParameter) (arg : Token)
    (argNo : ℕ) : ExceptT Thrown Option PUnit := do
  match tokens arg.image with
  -- not reached with a `QID`
  | [] => throw .nullPointerException
  | name :: path =>
      match msg.getParameter name with
      | some p =>
          match ← getField interface fuel p path with
          | none =>
              throw (argumentFault opt arg argNo
                (text " name does not resolve to a field"))
          | some field =>
              liftM (matchTypes interface opt field.type param arg argNo)
      | none => liftM (checkEnumItem interface opt arg argNo name path)

/-- `checkRange( value, min, max, param, arg, argNo )` -/
def checkBounds (value min max : ℤ) (param : TypedParameter) (arg : Token)
    (argNo : ℕ) : Except Thrown PUnit :=
  if value ≥ min ∧ value ≤ max then .ok ()
  else .error (parameterFault opt param arg argNo
    (text "integral value out of range"))

/-- `checkRange( value, param, arg, argNo )` of a `long` -/
def checkLongRange (value : ℤ) (param : TypedParameter) (arg : Token)
    (argNo : ℕ) : Except Thrown Bool := do
  match param.type.type.kind with
  | .byte => do
      checkBounds opt value (-128) 127 param arg argNo
      return true
  | .short => do
      checkBounds opt value (-32768) 32767 param arg argNo
      return true
  | .int => do
      checkBounds opt value (-2147483648) 2147483647 param arg argNo
      return true
  | .long | .float | .double => return true
  | _ => return false

/-- `checkRange( dvalue, param, arg, argNo )` of a `double` -/
def checkDoubleRange (dvalue : doubles.Double) (param : TypedParameter)
    (arg : Token) (argNo : ℕ) : Except Thrown Bool := do
  match param.type.type.kind with
  | .float =>
      if doubles.inFloatRange dvalue then return true
      else throw (parameterFault opt param arg argNo
        (text "floating value out of range"))
  | .double => return true
  | _ => return false

/-- `parseLong( s, radix, prefix )` -/
def parseLong (s : JavaString) (radix : ℕ) (start : JavaString) :
    Option ℤ :=
  if start.isPrefixOf (toLowerCase s) then
    digits.parseLong (s.drop start.length) radix
  else
    none

def checkBooleanConstant (param : TypedParameter) (arg : Token)
    (argNo : ℕ) : Except Thrown PUnit :=
  if param.type.isBoolean then .ok ()
  else .error (typeMismatch opt param arg argNo)

def checkStringConstant (param : TypedParameter) (arg : Token)
    (argNo : ℕ) : Except Thrown PUnit :=
  if param.type.isString then .ok ()
  else .error (typeMismatch opt param arg argNo)

/-- Whether an integer, parsed as a `long`, is in the range of its type. -/
def longFits (radix : ℕ) (start : JavaString) (param : TypedParameter)
    (arg : Token) (argNo : ℕ) : Except Thrown Bool :=
  match parseLong digits arg.image radix start with
  | some value => checkLongRange opt value param arg argNo
  | none => .ok false

def doubleFits (param : TypedParameter) (arg : Token) (argNo : ℕ) :
    Except Thrown Bool :=
  match doubles.parseDouble arg.image with
  | some dvalue => checkDoubleRange doubles opt dvalue param arg argNo
  | none => .ok false

def checkIntegerConstant (param : TypedParameter) (arg : Token)
    (argNo : ℕ) : Except Thrown PUnit := do
  if !(param.type.isIntegral || param.type.isFloating) then
    throw (typeMismatch opt param arg argNo)
  if ← longFits digits opt 10 [] param arg argNo then
    return ()
  if ← doubleFits doubles opt param arg argNo then
    return ()
  throw (typeMismatch opt param arg argNo)

/-- The check of a literal that is not decimal. -/
def checkRadixConstant (radix : ℕ) (start : JavaString)
    (param : TypedParameter) (arg : Token) (argNo : ℕ) :
    Except Thrown PUnit := do
  if !param.type.isIntegral then
    throw (typeMismatch opt param arg argNo)
  if ← longFits digits opt radix start param arg argNo then
    return ()
  throw (typeMismatch opt param arg argNo)

def checkOctalConstant (param : TypedParameter) (arg : Token) (argNo : ℕ) :
    Except Thrown PUnit :=
  checkRadixConstant digits opt 8 (text "0") param arg argNo

def checkHexConstant (param : TypedParameter) (arg : Token) (argNo : ℕ) :
    Except Thrown PUnit :=
  checkRadixConstant digits opt 16 (text "0x") param arg argNo

def checkBinaryConstant (param : TypedParameter) (arg : Token) (argNo : ℕ) :
    Except Thrown PUnit :=
  checkRadixConstant digits opt 2 (text "0b") param arg argNo

def checkDecimalConstant (param : TypedParameter) (arg : Token)
    (argNo : ℕ) : Except Thrown PUnit := do
  if !param.type.isFloating then
    throw (typeMismatch opt param arg argNo)
  if ← doubleFits doubles opt param arg argNo then
    return ()
  throw (typeMismatch opt param arg argNo)

/-- What the loop does with one argument. -/
def checkArgument (param : TypedParameter) (arg : Token) (argNo : ℕ) :
    ExceptT Thrown Option PUnit :=
  match arg.kind with
  | .null => return ()
  | .id =>
      liftM (checkMsgParamOrServiceConst interface msg opt param arg argNo)
  | .qid =>
      checkMsgParamFieldRefOrEnumItem interface fuel msg opt param arg argNo
  | .isTrue | .isFalse => liftM (checkBooleanConstant opt param arg argNo)
  | .integer =>
      liftM (checkIntegerConstant digits doubles opt param arg argNo)
  | .octal => liftM (checkOctalConstant digits opt param arg argNo)
  | .hex => liftM (checkHexConstant digits opt param arg argNo)
  | .binary => liftM (checkBinaryConstant digits opt param arg argNo)
  | .decimal => liftM (checkDecimalConstant doubles opt param arg argNo)
  | .str => liftM (checkStringConstant opt param arg argNo)
  | _ => throw (argumentFault opt arg argNo (text " unsupported kind"))

/-- What is wrong with the method. -/
def methodFault (fault : JavaString) : Thrown :=
  .parseException (text "Authorize method " ++ fault ++ text " at " ++
    text (toString opt.lineno))

/-- The method that decides, which is looked up in the service. -/
def authorizingMethod : Except Thrown Message := do
  match ← interface.get opt.method.image with
  | none =>
      throw (methodFault opt (text "name " ++ opt.method.image ++
        text " is not defined"))
  | some ⟨_, _, .message authMsg⟩ =>
      if authMsg.type.type.kind ≠ .boolean then
        throw (methodFault opt (opt.method.image ++
          text " result type is not boolean"))
      if authMsg.parameters.length ≠ opt.argList.length then
        throw (methodFault opt (opt.method.image ++
          text " parameter list size does not match the number of " ++
          text "supplied arguments"))
      return authMsg
  | some _ =>
      throw (methodFault opt (text "name " ++ opt.method.image ++
        text " is not a method"))

/-- `check( service, msg )`, where the service is that of the message -/
def check : ExceptT Thrown Option PUnit := do
  if opt.method.kind = .isTrue ∨ opt.method.kind = .isFalse then
    return ()
  let authMsg ← liftM (authorizingMethod interface opt)
  (authMsg.parameters.zip opt.argList).zipIdx.forM fun ((param, arg), i) =>
    checkArgument digits doubles interface fuel msg opt param arg i

end Check

/-! ## Types of arguments -/

/-- What a type is: a keyword, or something that has been found. -/
inductive Base where
  | builtin (image : JavaString)
  | named (path : List JavaString) (name : JavaString)
deriving DecidableEq

/-- A type with the number of its array dimensions. -/
structure Meaning where
  base : Base
  dim : ℕ
deriving DecidableEq

def base (place : Place) : Base :=
  .named place.path place.declaration.name

/-- What a type reference means in a service, if anything. -/
def meaning (interface : Interface) (use : TypeUse) : Option Meaning :=
  if use.isBuiltin then
    some ⟨.builtin use.type.image, use.dim⟩
  else
    match interface.get use.type.image with
    | .ok (some place) => some ⟨base place, use.dim⟩
    | _ => none

/-- An argument that is a parameter of the message, a field of one, or a
constant, with its declared type. -/
inductive RefersTo (interface : Interface) (msg : Message) (arg : Token) :
    TypeUse → Prop where
  | parameter {p : TypedParameter} (kind : arg.kind = .id)
      (found : msg.getParameter arg.image = some p) :
      RefersTo interface msg arg p.type
  | constant {path : List JavaString} {service : Service}
      {name : JavaString} {type : TypeUse} {value : Token}
      (kind : arg.kind = .id) (none : msg.getParameter arg.image = none)
      (found : interface.get arg.image =
        .ok (some ⟨path, service, .constant name type value⟩)) :
      RefersTo interface msg arg type
  | field {name : JavaString} {path : List JavaString}
      {p field : TypedParameter} (kind : arg.kind = .qid)
      (names : tokens arg.image = name :: path)
      (found : msg.getParameter name = some p)
      (settles : Fueled.Settles
        (fun fuel => getField interface fuel p path) (.ok (some field))) :
      RefersTo interface msg arg field.type

/-- An argument that is an item of an enum. -/
structure IsItem (interface : Interface) (msg : Message) (arg : Token)
    (place : Place) : Prop where
  kind : arg.kind = .qid
  names : ∃ name item items enumx, tokens arg.image = [name, item] ∧
    msg.getParameter name = none ∧ interface.get name = .ok (some place) ∧
    place.declaration = .enumx enumx items ∧ item ∈ items

section Types

variable (interface : Interface) (msg : Message) (opt : Authorize)
  (authMsg : Message)

/-- Every argument that has a declared type has the type of its parameter. -/
def TypesExact : Prop :=
  ∀ param arg, (param, arg) ∈ authMsg.parameters.zip opt.argList →
    (∀ type, RefersTo interface msg arg type →
      ∃ is, meaning interface type = some is ∧
        meaning interface param.type = some is) ∧
    ∀ place, IsItem interface msg arg place →
      meaning interface param.type = some ⟨base place, 0⟩

/-- What the check does not look at is as it should be. -/
def Unlooked : Prop :=
  ∀ param arg, (param, arg) ∈ authMsg.parameters.zip opt.argList →
    (∀ type, RefersTo interface msg arg type →
      type.dim = param.type.dim ∧
        (type.isBuiltin = true → param.type.isBuiltin = true →
          type.type.image = param.type.type.image) ∧
        (meaning interface type).isSome = true ∧
        (meaning interface param.type).isSome = true) ∧
    ∀ place, IsItem interface msg arg place →
      meaning interface param.type = some ⟨base place, 0⟩

end Types

section Proofs

variable {digits : RadixDigits} {doubles : Doubles} {interface : Interface}
  {msg : Message} {opt : Authorize} {param : TypedParameter} {arg : Token}
  {argNo : ℕ} {type : TypeUse}

theorem matchTypes_ok
    (done : matchTypes interface opt type param arg argNo = .ok ⟨⟩) :
    ∃ pt paramType, type.getNamed interface = .ok pt ∧
      param.type.getNamed interface = .ok paramType ∧
      sameNamed pt paramType = true := by
  obtain ⟨pt, found, done⟩ := Fallible.bind_eq_ok_iff.mp done
  obtain ⟨paramType, found', done⟩ := Fallible.bind_eq_ok_iff.mp done
  refine ⟨pt, paramType, found, found', ?_⟩
  by_contra differs
  rw [if_neg differs] at done
  cases done

/-- The meaning of a type whose name has been looked up. -/
theorem meaning_eq {pt : Option Place}
    (found : type.getNamed interface = .ok pt) :
    meaning interface type =
      if type.isBuiltin then some ⟨.builtin type.type.image, type.dim⟩
      else pt.map fun place => ⟨base place, type.dim⟩ := by
  rw [meaning]
  split_ifs with builtin
  · rfl
  · rw [TypeUse.getNamed, if_neg builtin] at found
    rw [found]
    cases pt <;> rfl

theorem none_of_builtin {pt : Option Place} (builtin : type.isBuiltin = true)
    (found : type.getNamed interface = .ok pt) : pt = none := by
  rw [TypeUse.getNamed, if_pos builtin] at found
  exact (Except.ok.inj found).symm

theorem both_some_iff {is is' : Meaning} :
    (∃ other, some is = some other ∧ some is' = some other) ↔ is = is' := by
  constructor
  · rintro ⟨other, same, same'⟩
    exact Option.some.inj (same.trans same'.symm)
  · rintro rfl
    exact ⟨is, rfl, rfl⟩

/-- Types that are the same to the check are the same if what it does not look
at is. -/
theorem exact_iff_unlooked
    (done : matchTypes interface opt type param arg argNo = .ok ⟨⟩) :
    (∃ is, meaning interface type = some is ∧
        meaning interface param.type = some is) ↔
      type.dim = param.type.dim ∧
        (type.isBuiltin = true → param.type.isBuiltin = true →
          type.type.image = param.type.type.image) ∧
        (meaning interface type).isSome = true ∧
        (meaning interface param.type).isSome = true := by
  obtain ⟨pt, paramType, found, found', same⟩ := matchTypes_ok done
  have builtin := fun is => none_of_builtin is found
  have builtin' := fun is => none_of_builtin is found'
  rw [meaning_eq found, meaning_eq found']
  match pt, paramType, same with
  | none, none, _ =>
      -- at least one of the types is a keyword, or none is resolved
      cases isBuiltin : type.isBuiltin with
      | false => simp
      | true =>
          cases isBuiltin' : param.type.isBuiltin with
          | false => simp
          | true =>
              rw [if_pos rfl, if_pos rfl, both_some_iff, Meaning.mk.injEq,
                Base.builtin.injEq]
              simp [and_comm]
  | some place, some other, same =>
      have keyword : ¬ type.isBuiltin = true := fun is => nomatch builtin is
      have keyword' : ¬ param.type.isBuiltin = true := fun is =>
        nomatch builtin' is
      have equal : base place = base other := by
        obtain ⟨path, name⟩ := of_decide_eq_true same
        rw [base, base, path, name]
      rw [if_neg keyword, if_neg keyword', Option.map_some,
        Option.map_some, both_some_iff, Meaning.mk.injEq]
      simp [keyword, equal]

/-- The check of an argument that has a declared type compares this type. -/
theorem matchTypes_of_check
    (refers : RefersTo interface msg arg type)
    (done : Fueled.Settles (fun fuel => checkArgument digits doubles
      interface fuel msg opt param arg argNo) (.ok ⟨⟩)) :
    matchTypes interface opt type param arg argNo = .ok ⟨⟩ := by
  obtain ⟨enough, done⟩ := done
  cases refers with
  | @parameter p kind found =>
      have checked := done enough (le_refl _)
      simp only [checkArgument, kind, checkMsgParamOrServiceConst, found]
        at checked
      exact Option.some.inj checked
  | @constant path service name type value kind none found =>
      have checked := done enough (le_refl _)
      simp only [checkArgument, kind, checkMsgParamOrServiceConst, none,
        found, Fallible.ok_bind] at checked
      exact Option.some.inj checked
  | @field name path p field kind names found settles =>
      obtain ⟨enough', settled⟩ := settles
      have checked := done (max enough enough') (Nat.le_max_left _ _)
      have resolved := settled (max enough enough') (Nat.le_max_right _ _)
      simp only [checkArgument, kind, checkMsgParamFieldRefOrEnumItem, names,
        found] at checked
      obtain ⟨result, first, rest⟩ := Fueled.bind_eq_ok_iff.mp checked
      cases first.symm.trans resolved
      exact Option.some.inj rest

/-- Every argument has been checked. -/
theorem check_arguments {authMsg : Message}
    (named : ¬ (opt.method.kind = .isTrue ∨ opt.method.kind = .isFalse))
    (method : authorizingMethod interface opt = .ok authMsg)
    (done : Fueled.Settles (fun fuel => check digits doubles interface fuel
      msg opt) (.ok ⟨⟩))
    (pair : (param, arg) ∈ authMsg.parameters.zip opt.argList) :
    ∃ argNo, Fueled.Settles (fun fuel => checkArgument digits doubles
      interface fuel msg opt param arg argNo) (.ok ⟨⟩) := by
  obtain ⟨enough, done⟩ := done
  obtain ⟨argNo, inside, is⟩ := List.mem_iff_getElem.mp pair
  refine ⟨argNo, enough, fun more order => ?_⟩
  have checked : check digits doubles interface more msg opt =
      ExceptT.mk (some (.ok ⟨⟩)) := done more order
  rw [check, if_neg named] at checked
  obtain ⟨found, first, rest⟩ := Fueled.bind_eq_ok_iff.mp checked
  rw [method] at first
  cases first
  exact Fueled.forM_ok rest ((param, arg), argNo)
    (List.mem_zipIdx_iff_getElem?.mpr
      (by rw [List.getElem?_eq_getElem inside, is]))

/-- Whenever the check succeeds, the types are exact if and only if the parts
of them are that it does not look at. -/
theorem typesExact_iff_unlooked {authMsg : Message}
    (named : ¬ (opt.method.kind = .isTrue ∨ opt.method.kind = .isFalse))
    (method : authorizingMethod interface opt = .ok authMsg)
    (done : Fueled.Settles (fun fuel => check digits doubles interface fuel
      msg opt) (.ok ⟨⟩)) :
    TypesExact interface msg opt authMsg ↔
      Unlooked interface msg opt authMsg := by
  refine forall_congr' fun param => forall_congr' fun arg =>
    forall_congr' fun pair => ?_
  obtain ⟨argNo, checked⟩ := check_arguments named method done pair
  refine and_congr_left fun _ => forall_congr' fun type =>
    forall_congr' fun refers => ?_
  exact exact_iff_unlooked (matchTypes_of_check refers checked)

end Proofs

/-! ## Keywords -/

def intType : TypeUse := ⟨⟨.int, text "int", 1⟩, 0⟩

def stringType : TypeUse := ⟨⟨.string, text "string", 1⟩, 0⟩

def canUse : Message :=
  ⟨text "canUse", ⟨⟨.boolean, text "boolean", 1⟩, 0⟩,
    [⟨text "account", intType⟩]⟩

def close : Message :=
  ⟨text "close", ⟨⟨.void, text "void", 2⟩, 0⟩, [⟨text "account", intType⟩]⟩

def find : Message :=
  ⟨text "find", ⟨⟨.void, text "void", 3⟩, 0⟩, [⟨text "owner", stringType⟩]⟩

def accounts : Interface :=
  .mk (text "m") (text "Accounts")
    [.message canUse, .message close, .message find]

/-- `@Authorize( canUse, arg )` -/
def canUseWith (arg : JavaString) : Authorize :=
  ⟨⟨.id, text "canUse", 2⟩, [⟨.id, arg, 2⟩], 2⟩

/-- No string is taken for a `double`. -/
def noDoubles : Doubles := ⟨PUnit, fun _ => none, fun _ => true⟩

theorem close_exact_iff :
    TypesExact accounts close (canUseWith (text "account")) canUse ↔
      Unlooked accounts close (canUseWith (text "account")) canUse :=
  @typesExact_iff_unlooked asciiRadixDigits noDoubles _ _ _ _ (by decide)
    rfl ⟨0, fun _ _ => rfl⟩

/-- A string is taken for an `int`. -/
theorem find_not_exact :
    Fueled.Settles (fun fuel => check asciiRadixDigits noDoubles accounts
        fuel find (canUseWith (text "owner"))) (.ok ⟨⟩) ∧
      authorizingMethod accounts (canUseWith (text "owner")) =
        .ok canUse ∧
      RefersTo accounts find ⟨.id, text "owner", 2⟩ stringType ∧
      ¬ TypesExact accounts find (canUseWith (text "owner")) canUse := by
  have refers : RefersTo accounts find ⟨.id, text "owner", 2⟩ stringType :=
    @RefersTo.parameter _ find _ ⟨text "owner", stringType⟩ rfl rfl
  refine ⟨⟨0, fun _ _ => rfl⟩, rfl, refers, fun exact => ?_⟩
  obtain ⟨is, first, second⟩ :=
    (exact ⟨text "account", intType⟩ ⟨.id, text "owner", 2⟩
      (by decide)).1 _ refers
  exact absurd (first.trans second.symm) (by decide)

end Authorize

end Etch.Compiler
