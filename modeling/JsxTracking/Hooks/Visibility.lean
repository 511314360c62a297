import JsxTracking.Handle
import JsxTracking.Imports
import JsxTracking.Marker

/-! # Visibility hooks

A show marker is backed by a state that is null while no element is watched, and otherwise holds the
element and its observer. After every commit an effect compares the element with the watched one.
If it is the same, its observer is still waiting or has already reported, and nothing is done. If it
is another one or gone, the old observer is disconnected and the new element, if there is one, is
watched. The first time the element is seen the observer reports it and disconnects. A second effect
disconnects what is left when the component unmounts. -/

namespace JsxTracking.Hooks

namespace Visibility

/-- The variable that holds the element. -/
def elementName : String := "__trackingElement"

/-- The variable that holds the state. -/
def stateName : String := "__trackingState"

/-- The variable that holds the new observer. -/
def observerName : String := "__trackingObserver"

/-- The variable that holds what the observer saw. -/
def entriesName : String := "__trackingEntries"

/-- The variable that holds one thing the observer saw. -/
def entryName : String := "__trackingEntry"

/-- The fraction of the element that must be visible. -/
def threshold : String := "0.1"

/-- `if (state) { state.observer.disconnect(); }` -/
def disconnectPrevious : Tree :=
  Code.ifThen (Code.reference stateName)
    [Code.perform (Code.methodCall (Code.member (Code.reference stateName) "observer")
      "disconnect" [])]

/-- `holder.current = null;` -/
def resetState (holder : String) : Tree :=
  Code.perform (Code.assignMember (Code.reference holder) "current" Code.nullLiteral)

/-- `const name = holder.current;` -/
def readCurrent (name holder : String) : Tree :=
  Code.constant name (Code.member (Code.reference holder) "current")

/-- What the observer does with the entries it is given. -/
def observerCallback (value : MarkerValue) (runtimeGlobal : String) : Tree :=
  let seen := Code.methodCall (Code.reference entriesName) "some"
    [Code.arrowTo [Code.binding entryName]
      (Code.member (Code.reference entryName) "isIntersecting")]
  Code.arrow [Code.binding entriesName]
    [Code.ifThen seen
      [Code.guardedRuntimeCall runtimeGlobal "show" value.expression,
        Code.perform (Code.methodCall (Code.reference observerName) "disconnect" [])]]

/-- The declaration of the state. -/
def state (handle : ElementHandle) : Tree :=
  Code.constant handle.visibilityState
    (Code.call (Code.reference HookNames.useRef) [Code.nullLiteral])

/-- The effect that watches the current element. -/
def watching (handle : ElementHandle) (value : MarkerValue) (runtimeGlobal : String) : Tree :=
  let holder := handle.visibilityState
  let sameElement := Code.binary "&&" (Code.reference stateName)
    (Code.binary "===" (Code.member (Code.reference stateName) "element")
      (Code.reference elementName))
  let cannotObserve := Code.binary "||" (Code.unary "!" (Code.reference elementName))
    (Code.typeofIs (Code.reference "IntersectionObserver") "undefined")
  Code.perform (Code.call (Code.reference HookNames.useEffect)
    [Code.arrow []
      [readCurrent elementName handle.name,
        readCurrent stateName holder,
        Code.ifThen sameElement [Code.returnNothing],
        disconnectPrevious,
        resetState holder,
        Code.ifThen cannotObserve [Code.returnNothing],
        Code.constant observerName (Code.construct "IntersectionObserver"
          [observerCallback value runtimeGlobal,
            Code.object [("threshold", Code.number threshold)]]),
        Code.perform (Code.assignMember (Code.reference holder) "current"
          (Code.object [("element", Code.reference elementName),
            ("observer", Code.reference observerName)])),
        Code.perform (Code.methodCall (Code.reference observerName) "observe"
          [Code.reference elementName])]])

/-- The effect that disconnects the observer when the component unmounts. -/
def unmounting (handle : ElementHandle) : Tree :=
  let holder := handle.visibilityState
  Code.perform (Code.call (Code.reference HookNames.useEffect)
    [Code.arrowTo [] (Code.arrow []
        [readCurrent stateName holder, disconnectPrevious, resetState holder]),
      Code.array []])

end Visibility

/-- The hooks of a show marker. -/
def visibility (handle : ElementHandle) (value : MarkerValue) (runtimeGlobal : String) :
    List Tree :=
  [Visibility.state handle, Visibility.watching handle value runtimeGlobal,
    Visibility.unmounting handle]

end JsxTracking.Hooks
