import PoolLint.Bytecode.Descriptor

/-!
# Kinds of pooled resources

A kind says which calls take an instance from its pool, which call gives it back, and which
static calls may receive an instance without taking it over.
-/

namespace PoolLint

open PoolLint.Bytecode

/-- A set of calls given by owner, name and, if present, the end of the descriptor. -/
structure CallPattern where
  owner : String
  name : String
  descSuffix : Option String
deriving DecidableEq, Repr

/-- The pattern covers a call. -/
def CallPattern.matchesCall (p : CallPattern) (call : CallSite) : Bool :=
  call.owner == p.owner && call.name == p.name &&
    p.descSuffix.all fun suffix => suffix.toList.isSuffixOf call.desc.toList

/-- The method that gives an instance back; its owner is that of the kind. -/
structure ReleaseCall where
  name : String
  desc : String
deriving DecidableEq, Repr

/-- The usual release: `recycle()V`. -/
def ReleaseCall.recycle : ReleaseCall :=
  ⟨"recycle", "()V"⟩

/-- A kind of pooled resource. -/
structure ResourceKind where
  /-- The name used in settings and reports. -/
  name : String
  /-- The type of the instances. -/
  owner : String
  /-- The calls that take an instance from the pool. -/
  obtain : List CallPattern
  release : ReleaseCall
  /-- Instances are followed through the method; otherwise the kind only takes part in the
  coarse pass over a class. -/
  flowChecked : Bool
  /-- Static calls that receive an instance without taking it over. -/
  preserving : List CallPattern
deriving DecidableEq, Repr

namespace ResourceKind

/-- The owner's name without its package: what follows the last `/`. -/
def simpleName (k : ResourceKind) : String :=
  String.ofList (k.owner.toList.reverse.takeWhile (· != '/')).reverse

/-- The call takes an instance from the pool. -/
def isObtain (k : ResourceKind) (call : CallSite) : Bool :=
  k.obtain.any (·.matchesCall call)

/-- The call has owner, name and descriptor of the release, however it is dispatched. -/
def isRelease (k : ResourceKind) (call : CallSite) : Bool :=
  call.owner == k.owner && call.name == k.release.name && call.desc == k.release.desc

/-- The call may receive an instance without taking it over. -/
def preservesIdentity (k : ResourceKind) (call : CallSite) : Bool :=
  decide (call.kind = .static) && k.preserving.any (·.matchesCall call)

end ResourceKind

end PoolLint
