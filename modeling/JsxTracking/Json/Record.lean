import JsxTracking.Json.Reader

/-! # Reading records

A record is written as an object, whose members come in any order and may be mixed with members
that do not matter, or as the list of its members' values in order. A member of the record must not
be repeated. -/

namespace JsxTracking.Json

/-- A member of a record that is read into a state of type `σ`. -/
structure Member (σ : Type) where
  key : String
  /-- Whether the member has been read. -/
  isRead : σ → Bool
  /-- Read the value of the member. -/
  read : σ → Reader σ

namespace Member

/-- A member whose value is kept in an optional part of the state. -/
def stored {σ α : Type} (key : String) (part : σ → Option α) (value : Reader α)
    (store : σ → α → σ) : Member σ where
  key := key
  isRead state := (part state).isSome
  read state := do return store state (← value)

end Member

namespace Reader

variable {σ : Type}

/-- The members of an object; `fuel` bounds their number. -/
def members (record : List (Member σ)) : (fuel : Nat) → (first : Bool) → σ → Reader σ
  | 0, _, _ => fail .truncated
  | fuel + 1, first, state => do
    if ← moreMembers first then
      let key := String.ofList (← lift stringChars)
      match record.find? fun member => member.key = key with
      | some member =>
        if member.isRead state then fail .unexpected
        else
          colon
          members record fuel false (← member.read state)
      | none =>
        colon
        skip
        members record fuel false state
    else
      advance
      return state

/-- The values of the members in a list. The list may be shorter than the record but not longer. -/
def values : List (Member σ) → (first : Bool) → σ → Reader σ
  | [], _, state => do
    endOfList
    return state
  | member :: record, first, state => do
    if ← moreItems first then values record false (← member.read state)
    else
      endOfList
      return state

/-- The members of a record in either form. -/
def record (members : List (Member σ)) (state : σ) : Reader σ := do
  match ← peek with
  | none => fail .truncated
  | some '[' =>
    advance
    values members true state
  | some '{' =>
    advance
    Reader.members members ((← get).length + 1) true state
  | some _ => mismatch

/-- The record that the members make up, unless one is missing. -/
def complete {α : Type} (value? : Option α) : Reader α :=
  match value? with
  | some value => return value
  | none => fail .unexpected

end Reader

end JsxTracking.Json
