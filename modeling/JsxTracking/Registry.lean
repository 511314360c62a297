import JsxTracking.Point

/-! # The registry of tracking keys

Over a whole build, a registry remembers the first point that used each key. Later points with the
same key are duplicates of it. Points whose name is only known to the running page have no key of
their own and are never registered. -/

namespace JsxTracking

/-- What a registry says to a point. -/
inductive Registration where
  /-- The point is the first with its key. -/
  | registered
  /-- An earlier point has the key. -/
  | duplicate (first : TrackingPoint)
  /-- The point has no key. -/
  | unkeyed
  deriving DecidableEq, Repr, Inhabited

/-- The first point of each key, in order of registration. -/
structure Registry where
  entries : List (String × TrackingPoint) := []
  deriving DecidableEq, Repr, Inhabited

namespace Registry

/-- The registry before any point. -/
def empty : Registry := {}

/-- The first point with a key. -/
def get? (registry : Registry) (key : String) : Option TrackingPoint :=
  registry.entries.lookup key

/-- The number of keys. -/
def size (registry : Registry) : Nat :=
  registry.entries.length

/-- Register a point unless its key is taken. -/
def register (registry : Registry) (point : TrackingPoint) : Registration × Registry :=
  if point.dynamic then (.unkeyed, registry)
  else
    match registry.get? point.key with
    | some first => (.duplicate first, registry)
    | none => (.registered, { entries := registry.entries ++ [(point.key, point)] })

end Registry

end JsxTracking
