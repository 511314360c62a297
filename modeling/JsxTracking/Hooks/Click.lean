import JsxTracking.Handle
import JsxTracking.Imports
import JsxTracking.Marker

/-! # Click hooks

A click marker is backed by a memoized listener that calls the runtime, and by an effect that binds
the listener to the element after every commit. The effect has no dependencies: an element that is
mounted later is picked up by the next commit, and one that went away is released by the previous
cleanup. -/

namespace JsxTracking.Hooks

namespace Click

/-- The variable that holds the element in the effect. -/
def elementName : String := "__trackingElement"

/-- `element.method("click", callback);` -/
def listenerCall (method callback : String) : Tree :=
  Code.perform (Code.methodCall (Code.reference elementName) method
    [Code.string "click", Code.reference callback])

/-- What the listener depends on: the marker's expression, if it has one. -/
def dependencies : MarkerValue → List Tree
  | .literal _ => []
  | .dynamic expression => [expression]

/-- The declaration of the memoized listener. -/
def listener (handle : ElementHandle) (value : MarkerValue) (runtimeGlobal : String) : Tree :=
  Code.constant handle.clickCallback
    (Code.call (Code.reference HookNames.useCallback)
      [Code.arrow [] [Code.guardedRuntimeCall runtimeGlobal "click" value.expression],
        Code.array (dependencies value)])

/-- The effect that binds the listener to the current element. -/
def binding (handle : ElementHandle) : Tree :=
  Code.perform (Code.call (Code.reference HookNames.useEffect)
    [Code.arrow []
      [Code.constant elementName (Code.member (Code.reference handle.name) "current"),
        Code.ifThen (Code.unary "!" (Code.reference elementName)) [Code.returnNothing],
        listenerCall "removeEventListener" handle.clickCallback,
        listenerCall "addEventListener" handle.clickCallback,
        Code.returnValue
          (Code.arrow [] [listenerCall "removeEventListener" handle.clickCallback])]])

end Click

/-- The hooks of a click marker. -/
def click (handle : ElementHandle) (value : MarkerValue) (runtimeGlobal : String) : List Tree :=
  [Click.listener handle value runtimeGlobal, Click.binding handle]

end JsxTracking.Hooks
