import PoolLint.Resource.Kind

/-!
# Tables of resource kinds

The kinds a check knows, in order: where several kinds cover a call the first one counts, and
a call that releases an instance never counts as obtaining one.
-/

namespace PoolLint

open PoolLint.Bytecode

/-- Resource kinds in order of precedence. -/
structure ResourceTable where
  kinds : List ResourceKind
deriving DecidableEq, Repr

/-- What a call does with the kind at a position of the table. -/
inductive CallRole where
  | obtain (id : Nat)
  | release (id : Nat)
deriving DecidableEq, Repr

namespace ResourceTable

/-- The names of the kinds, in order. -/
def names (t : ResourceTable) : List String :=
  t.kinds.map (·.name)

/-- The kind at a position. -/
def kind? (t : ResourceTable) (id : Nat) : Option ResourceKind :=
  t.kinds[id]?

/-- The position of the first kind of a name. -/
def find? (t : ResourceTable) (name : String) : Option Nat :=
  t.kinds.findIdx? (·.name == name)

/-- Replaces the first kind of the same name, or adds the kind at the end. -/
def insert (t : ResourceTable) (kind : ResourceKind) : ResourceTable :=
  match t.find? kind.name with
  | some id => ⟨t.kinds.set id kind⟩
  | none => ⟨t.kinds ++ [kind]⟩

/-- Removes the kinds that have one of the given names. -/
def remove (t : ResourceTable) (names : List String) : ResourceTable :=
  ⟨t.kinds.filter fun k => !names.contains k.name⟩

/-- The role of a call; releases come before obtains. -/
def classify (t : ResourceTable) (call : CallSite) : Option CallRole :=
  match t.kinds.findIdx? (·.isRelease call) with
  | some id => some (.release id)
  | none => (t.kinds.findIdx? (·.isObtain call)).map .obtain

/-! ## The built-in kinds -/

/-- A kind of the usual shape: released by `recycle()V`, with no preserving calls. -/
def recycled (name owner : String) (obtain : List CallPattern) (flowChecked : Bool) :
    ResourceKind :=
  ⟨name, owner, obtain, .recycle, flowChecked, []⟩

/-- Styled attributes; the obtaining methods exist on contexts and on resources. -/
def typedArray : ResourceKind :=
  let owners := ["android/content/Context", "android/content/res/Resources"]
  let methods := ["obtainStyledAttributes", "obtainAttributes", "obtainTypedArray"]
  recycled "TypedArray" "android/content/res/TypedArray"
    (owners.flatMap fun owner => methods.map fun method =>
      ⟨owner, method, some "Landroid/content/res/TypedArray;"⟩)
    true

/-- Velocity trackers. -/
def velocityTracker : ResourceKind :=
  recycled "VelocityTracker" "android/view/VelocityTracker"
    [⟨"android/view/VelocityTracker", "obtain", none⟩] false

/-- Messages, obtained from their class or from a handler. -/
def message : ResourceKind :=
  recycled "Message" "android/os/Message"
    [⟨"android/os/Handler", "obtainMessage", some "Landroid/os/Message;"⟩,
      ⟨"android/os/Message", "obtain", some "Landroid/os/Message;"⟩] false

/-- Motion events; obtaining a copy leaves the event with its owner. -/
def motionEvent : ResourceKind :=
  { recycled "MotionEvent" "android/view/MotionEvent"
      [⟨"android/view/MotionEvent", "obtain", none⟩,
        ⟨"android/view/MotionEvent", "obtainNoHistory", none⟩] true with
    preserving := [⟨"android/view/MotionEvent", "obtain", none⟩] }

/-- Parcels. -/
def parcel : ResourceKind :=
  recycled "Parcel" "android/os/Parcel" [⟨"android/os/Parcel", "obtain", none⟩] true

/-- The kinds known without any settings. -/
def builtin : ResourceTable :=
  ⟨[typedArray, velocityTracker, message, motionEvent, parcel]⟩

/-- The built-in kinds with `extra` kinds added or put in place of those of the same name,
less the `disabled` names. -/
def configured (disabled : List String) (extra : List ResourceKind) : ResourceTable :=
  (extra.foldl insert builtin).remove disabled

end ResourceTable

end PoolLint
