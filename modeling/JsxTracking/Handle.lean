import JsxTracking.Syntax.Names

/-! # Element handles

Every instrumented element gets a handle: an index from which three variable names are made, one for
the reference to the element and one for each kind of hook. Handles are given out in increasing
order, and an index is passed over when the module already uses one of its names. -/

namespace JsxTracking

/-- The handle of an instrumented element. -/
structure ElementHandle where
  index : Nat
  deriving DecidableEq, Repr, Inhabited

namespace ElementHandle

/-- The variable that refers to the element. -/
def name (handle : ElementHandle) : String :=
  "trackingRef" ++ toString handle.index

/-- The variable of the click listener. -/
def clickCallback (handle : ElementHandle) : String :=
  "trackingClick" ++ toString handle.index

/-- The variable of the visibility observer's state. -/
def visibilityState (handle : ElementHandle) : String :=
  "trackingShow" ++ toString handle.index

/-- The names of the variables that instrumentation may declare for the handle. -/
def ownNames (handle : ElementHandle) : List String :=
  [handle.name, handle.clickCallback, handle.visibilityState]

end ElementHandle

/-- A handle together with the names that were found taken on the way to it. -/
structure Allocation where
  handle : ElementHandle
  collisions : List String
  deriving DecidableEq, Repr, Inhabited

/-- What has been given out so far. -/
structure HandleAllocator where
  /-- The least index that has not been considered. -/
  next : Nat := 0
  /-- The names that are in use. -/
  taken : List String := []
  deriving DecidableEq, Repr, Inhabited

namespace HandleAllocator

/-- The allocator for a module, whose identifiers are all taken. -/
def ofModule (items : List Tree) : HandleAllocator :=
  { taken := Tree.identifiersInItems items }

/-- Look for the first free handle from an index on. Every index that is passed over has a taken
name of its own, so with `attempts` at least the number of taken names the search ends at a free
handle. -/
def search (taken : List String) : (attempts index : Nat) → Allocation
  | 0, index => ⟨⟨index⟩, []⟩
  | attempts + 1, index =>
    match (ElementHandle.mk index).ownNames.filter taken.contains with
    | [] => ⟨⟨index⟩, []⟩
    | clashing =>
      let found := search taken attempts (index + 1)
      { found with collisions := clashing ++ found.collisions }

/-- Give out the next free handle. -/
def allocate (allocator : HandleAllocator) : Allocation × HandleAllocator :=
  let found := search allocator.taken allocator.taken.length allocator.next
  (found, ⟨found.handle.index + 1, found.handle.ownNames ++ allocator.taken⟩)

end HandleAllocator

end JsxTracking
